import Mathlib.Logic.Relation
import AbnfCompiler.Grammar.Rendering
import AbnfCompiler.Proofs.Expression.Productions
import AbnfCompiler.Proofs.Expression.SpelledOut
import AbnfCompiler.Proofs.Grammar.Flaw
import AbnfCompiler.Proofs.RuleName
import AbnfCompiler.Proofs.Script.Token

/-!
The languages of a grammar's rules, and what a grammar has to be like to be presented as a script.
-/
namespace AbnfCompiler

open RuleName

namespace Grammar

/-- The languages of the rules, whatever the spelling of their names. -/
def language (g : Grammar) : String → Language Codepoint :=
  generated fun name e ↦ ∃ r ∈ g.rules, normal r.name = normal name ∧ r.body = e

/-- An inlined rule refers to another one, or to itself. -/
def Inlines (g : Grammar) (a b : String) : Prop :=
  ∃ r ∈ g.rules, r.inlined ∧ normal r.name = a ∧
    ∃ n ∈ r.body.references, normal n = b ∧ g.isInlined n

/-- The grammar is valid, its names are plain and defined, no inlined rule comes back to itself, and
all bodies and comments can be written down. -/
structure Presentable (g : Grammar) : Prop where
  valid : g.flaw? = none
  plain : ∀ r ∈ g.rules, isPlain r.name ∧ r.name ≠ entryRule
  defined : ∀ r ∈ g.rules, ∀ n ∈ r.body.references, (g.resolve? n).isSome
  acyclic : ∀ name, ¬ Relation.TransGen g.Inlines name name
  writable : ∀ r ∈ g.rules, r.body.isWritable
  comments : ∀ r ∈ g.rules, ∀ comment ∈ r.comments, ∀ c ∈ comment.toList, ¬ Script.isLineBreak c

section Rules

variable {g : Grammar} {name : String} {r : Rule}

theorem symbol_normal (g : Grammar) (name : String) : g.symbol (normal name) = g.symbol name := by
  have hhidden : g.isHidden (normal name) = g.isHidden name := by
    simp only [isHidden, resolve?, normal_normal]
  rw [symbol, symbol, hhidden, RuleName.hidden, RuleName.hidden, normal_normal]

theorem isInlined_normal (g : Grammar) (name : String) :
    g.isInlined (normal name) = g.isInlined name := by
  simp only [isInlined, resolve?, normal_normal]

theorem Presentable.normal_name (hg : g.Presentable) (hr : r ∈ g.rules) : normal r.name = r.name :=
  normal_of_isPlain (hg.plain r hr).1

theorem Presentable.nodup (hg : g.Presentable) : (g.rules.map Rule.name).Nodup := by
  have hnodup := (flaw?_eq_none.1 hg.valid).1
  rwa [List.map_congr_left fun r hr ↦ hg.normal_name hr] at hnodup

theorem Presentable.resolve?_eq_some (hg : g.Presentable) :
    g.resolve? name = some r ↔ r ∈ g.rules ∧ r.name = normal name := by
  rw [resolve?_eq_some_iff (flaw?_eq_none.1 hg.valid).1]
  refine and_congr_right fun hr ↦ ?_
  rw [hg.normal_name hr]

theorem Presentable.resolve?_name (hg : g.Presentable) (hr : r ∈ g.rules) :
    g.resolve? r.name = some r :=
  hg.resolve?_eq_some.2 ⟨hr, (hg.normal_name hr).symm⟩

theorem Presentable.language_eq (hg : g.Presentable) (h : g.resolve? name = some r) :
    g.language name = r.body.language g.language := by
  refine generated_eq fun e ↦ ⟨?_, ?_⟩
  · rintro ⟨r', hr', hname, rfl⟩
    rw [hg.normal_name hr'] at hname
    rw [Option.some.inj ((hg.resolve?_eq_some.2 ⟨hr', hname⟩).symm.trans h)]
  · rintro rfl
    obtain ⟨hr, hname⟩ := hg.resolve?_eq_some.1 h
    exact ⟨r, hr, (hg.normal_name hr).trans hname, rfl⟩

/-- A symbol tells which rule it belongs to, since no name of a rule begins as a hidden one. -/
theorem ofSymbol_symbol (g : Grammar) (h : isPlain (normal name)) :
    ofSymbol (g.symbol name) = normal name := by
  rw [symbol]
  split
  · exact ofSymbol_hidden name
  · exact ofSymbol_of_isPlain h

theorem Presentable.ofSymbol_symbol (hg : g.Presentable) (hr : r ∈ g.rules) :
    ofSymbol (g.symbol r.name) = r.name := by
  have hname := hg.normal_name hr
  rw [Grammar.ofSymbol_symbol g (hname.symm ▸ (hg.plain r hr).1), hname]

theorem Presentable.symbol_injective (hg : g.Presentable) {r' : Rule} (hr : r ∈ g.rules)
    (hr' : r' ∈ g.rules) (h : g.symbol r.name = g.symbol r'.name) : r = r' := by
  refine List.inj_on_of_nodup_map hg.nodup hr hr' ?_
  rw [← hg.ofSymbol_symbol hr, h, hg.ofSymbol_symbol hr']

theorem Presentable.symbol_ne_entryRule (hg : g.Presentable) (hr : r ∈ g.rules) :
    g.symbol r.name ≠ entryRule := by
  intro h
  have hname := hg.ofSymbol_symbol hr
  rw [h] at hname
  exact (hg.plain r hr).2 hname.symm

end Rules

end Grammar

end AbnfCompiler
