import AbnfCompiler.Proofs.Expression.Substitution
import AbnfCompiler.Proofs.Grammar.Script
import AbnfCompiler.Proofs.Script.Language

/-!
Expressions are read back from their text. The text tells apart hidden, inlined and other rules,
native repetitions, the values of literals and the bounds of classes, so that no two expressions
share a text unless they are the same when their repetitions are spelled out.
-/
namespace AbnfCompiler

namespace Script

/-- The term that a text is, if it is one. -/
def term? (text : String) : Option Term := do
  match ← State.run? ⟨[], [], .term⟩ (← tokens? text) with
  | ⟨[], [], .done t⟩ => some t
  | _ => none

theorem term?_of_reads {text : String} {t : Term} (h : Reads text.toList t) :
    term? text = some t := by
  obtain ⟨ts, ⟨mode, us, vs, hscan, hpending, -, rfl⟩, hrun⟩ := h [] []
  have htokens : tokens? text = some (us ++ vs) := by
    rw [tokens?, hscan]
    simp only [Option.bind_eq_bind, Option.bind_some, hpending]
    rfl
  rw [term?, htokens]
  simp only [Option.bind_eq_bind, Option.bind_some, hrun]

end Script

namespace Expression

mutual

/-- The values of the literals, in order and with repeats. -/
def literals : Expression → List (List Codepoint)
  | .literal value => [value]
  | .reference _ | .charClass _ => []
  | .sequence items | .choice items => literalsAll items
  | .repetition element _ | .optional element => literals element

def literalsAll : List Expression → List (List Codepoint)
  | [] => []
  | e :: es => literals e ++ literalsAll es

end

mutual

/-- What was spelled out can be written down if its literals can. -/
theorem isWritable_of_spelledOut : ∀ {e e' : Expression}, e.spelledOut = .ok e' →
    (∀ value ∈ e.literals, ∀ c ∈ value, c.isSurrogate = false) → e.isWritable
  | .reference _, _, _, _ => rfl
  | .charClass _, _, _, _ => rfl
  | .literal value, _, _, hvalues => by
    rw [isWritable, List.all_eq_true]
    intro c hc
    rw [hvalues value (List.mem_singleton_self value) c hc]
    rfl
  | .sequence items, _, h, hvalues => by
    rw [spelledOut] at h
    obtain ⟨es, hes, -⟩ := except_bind_eq_ok.1 h
    exact allWritable_of_spelledOutAll hes hvalues
  | .choice items, _, h, hvalues => by
    rw [spelledOut] at h
    obtain ⟨es, hes, -⟩ := except_bind_eq_ok.1 h
    exact allWritable_of_spelledOutAll hes hvalues
  | .optional element, _, h, hvalues => by
    rw [spelledOut] at h
    obtain ⟨e, he, -⟩ := except_bind_eq_ok.1 h
    exact isWritable_of_spelledOut (e := element) he hvalues
  | .repetition element bounds, _, h, hvalues => by
    rw [spelledOut] at h
    obtain ⟨e, he, h⟩ := except_bind_eq_ok.1 h
    have hw := isWritable_of_spelledOut (e := element) he hvalues
    rw [isWritable, hw, Bool.and_true, bne_iff_ne]
    intro hmost
    have hnative : bounds.isNative = false := by rw [Bounds.isNative, hmost]; rfl
    rw [hnative] at h
    have hcopies := (references_repeated h).1
    rw [Bounds.copies, hnative, hmost] at hcopies
    exact Nat.lt_irrefl 0 hcopies

theorem allWritable_of_spelledOutAll : ∀ {es es' : List Expression}, spelledOutAll es = .ok es' →
    (∀ value ∈ literalsAll es, ∀ c ∈ value, c.isSurrogate = false) → allWritable es
  | [], _, _, _ => rfl
  | e :: es, _, h, hvalues => by
    rw [literalsAll, List.forall_mem_append] at hvalues
    rw [spelledOutAll] at h
    obtain ⟨e', he, h⟩ := except_bind_eq_ok.1 h
    obtain ⟨es', hes, -⟩ := except_bind_eq_ok.1 h
    rw [allWritable, isWritable_of_spelledOut he hvalues.1,
      allWritable_of_spelledOutAll hes hvalues.2]
    rfl

end

end Expression

namespace Grammar

open RuleName Script

variable {g : Grammar} {call : String → Option Expression} {σ : String → Expression}

section Terms

theorem combinator?_helper (name : String) : combinator? (helper name) = none := by
  have hfirst : (helper name).toList.head? = some 'i' := by simp [helper]
  unfold combinator?
  split
  · next h => rw [h] at hfirst; cases hfirst
  · next h => rw [h] at hfirst; cases hfirst
  · next h => rw [h] at hfirst; cases hfirst
  · next h => rw [h] at hfirst; cases hfirst
  · next h => rw [h] at hfirst; cases hfirst
  · rfl

theorem expression?_reference (g : Grammar) (call : String → Option Expression) (name : String) :
    (g.term (.reference name)).expression? call
      = if g.isInlined name then call (helper name) else some (.reference (g.symbol name)) := by
  rw [term]
  split
  · rw [Term.expression?, combinator?_helper]
    rfl
  · rfl

mutual

/-- The term of an expression is read as the expression, with what its references are read as. -/
theorem expression?_term : ∀ {e : Expression}, e.isNative → e.isWritable →
    (∀ n ∈ e.references, (g.term (.reference n)).expression? call = some (σ n)) →
    (g.term e).expression? call = some (e.subst σ)
  | .reference name, _, _, h => h name (List.mem_singleton_self name)
  | .literal value, _, hw, _ => by
    rw [Expression.isWritable, List.all_eq_true] at hw
    have hvalue : (value.map fun c ↦ Char.ofNat c.val).map Codepoint.ofChar = value := by
      rw [List.map_map]
      refine (List.map_congr_left fun c hc ↦ ?_).trans (List.map_id value)
      exact Codepoint.ofChar_ofNat (by simpa using hw c hc)
    rw [term, Term.expression?, hvalue]
    rfl
  | .charClass range, _, _, _ => by
    rw [term, Term.expression?, dif_pos ⟨range.ordered, range.inside⟩]
    rfl
  | .sequence items, hn, hw, h => by
    have hitems := expressions?_terms (show Expression.allNative items from hn)
      (show Expression.allWritable items from hw) h
    rw [term, Term.expression?, combinator?, hitems]
    rfl
  | .choice items, hn, hw, h => by
    have hitems := expressions?_terms (show Expression.allNative items from hn)
      (show Expression.allWritable items from hw) h
    rw [term, Term.expression?, combinator?, hitems]
    rfl
  | .optional element, hn, hw, h => by
    have helement := expression?_term (show element.isNative from hn)
      (show element.isWritable from hw) h
    rw [term, Term.expression?, combinator?, Term.expressions?, helement]
    rfl
  | .repetition element bounds, hn, hw, h => by
    rw [Expression.isNative, Bool.and_eq_true] at hn
    rw [Expression.isWritable, Bool.and_eq_true] at hw
    have helement := expression?_term hn.2 hw.2 h
    obtain ⟨least, most, hordered⟩ := bounds
    rw [Bounds.isNative, Bool.and_eq_true, Option.isNone_iff_eq_none, decide_eq_true_eq] at hn
    obtain ⟨⟨rfl, hleast⟩, -⟩ := hn
    rw [term]
    rcases Nat.le_one_iff_eq_zero_or_eq_one.1 hleast with rfl | rfl
    · rw [if_neg Nat.zero_ne_one, Term.expression?, combinator?, Term.expressions?, helement]
      rfl
    · rw [if_pos rfl, Term.expression?, combinator?, Term.expressions?, helement]
      rfl

theorem expressions?_terms : ∀ {es : List Expression}, Expression.allNative es →
    Expression.allWritable es →
    (∀ n ∈ Expression.referencesAll es, (g.term (.reference n)).expression? call = some (σ n)) →
    Term.expressions? call (g.terms es) = some (Expression.substAll σ es)
  | [], _, _, _ => rfl
  | e :: es, hn, hw, h => by
    rw [Expression.allNative, Bool.and_eq_true] at hn
    rw [Expression.allWritable, Bool.and_eq_true] at hw
    rw [Expression.referencesAll, List.forall_mem_append] at h
    rw [terms, Term.expressions?, expression?_term hn.1 hw.1 h.1, expressions?_terms hn.2 hw.2 h.2]
    rfl

end

end Terms

section Texts

variable {e : Expression} {text : String}

/-- The expression that a text is, whatever the policy for the rules that it names. -/
def readExpression? (text : String) : Option Expression := do
  let e ← (← term? text).expression? fun f ↦ some (.reference (ofHelper f))
  return e.subst fun symbol ↦ .reference (ofSymbol symbol)

theorem readExpression?_nativeText (g : Grammar) (hn : e.isNative) (hw : e.isWritable)
    (hplain : ∀ n ∈ e.references, isPlain n) : readExpression? (g.nativeText e) = some e := by
  have hnormal : ∀ n ∈ e.references, normal n = n ∧ isPlain (normal n) := by
    intro n hn
    have hname := normal_of_isPlain (hplain n hn)
    exact ⟨hname, hname.symm ▸ hplain n hn⟩
  have hreads := g.reads_nativeText hw fun n hn ↦ (hnormal n hn).2
  have hterm : (g.term e).expression? (fun f ↦ some (.reference (ofHelper f)))
      = some (e.subst fun n ↦ .reference (if g.isInlined n then n else g.symbol n)) := by
    refine expression?_term hn hw fun n hn ↦ ?_
    rw [expression?_reference, ofHelper_helper, (hnormal n hn).1]
    split <;> rfl
  have hback : (e.subst fun n ↦ .reference (if g.isInlined n then n else g.symbol n)).subst
      (fun symbol ↦ .reference (ofSymbol symbol)) = e := by
    refine Expression.subst_subst_eq_self fun n hn ↦ ?_
    rw [Expression.subst]
    split
    · rw [ofSymbol_of_isPlain (hplain n hn)]
    · rw [g.ofSymbol_symbol (hnormal n hn).2, (hnormal n hn).1]
  rw [readExpression?, term?_of_reads hreads]
  simp only [Option.bind_eq_bind, Option.bind_some, hterm]
  exact congrArg some hback

theorem readExpression?_expressionText (h : g.expressionText e = .ok text)
    (hplain : ∀ n ∈ e.references, isPlain n)
    (hvalues : ∀ value ∈ e.literals, ∀ c ∈ value, c.isSurrogate = false) :
    ∃ e', e.spelledOut = .ok e' ∧ readExpression? text = some e' := by
  obtain ⟨e', he', rfl⟩ := expressionText_eq_ok.1 h
  have hw := Expression.isWritable_of_spelledOut he' hvalues
  obtain ⟨heq, hspelled⟩ := Expression.spelledOut_eq_ok hw
  cases he'.symm.trans heq
  refine ⟨_, heq, g.readExpression?_nativeText hspelled.native hspelled.writable fun n hn ↦ ?_⟩
  exact hplain n (hspelled.references n hn)

/-- Expressions that share a text are the same when their repetitions are spelled out, and that
expression is read back from the text. -/
theorem spelledOut_eq_of_expressionText_eq {e' : Expression}
    (hplain : ∀ n ∈ e.references ++ e'.references, isPlain n)
    (hvalues : ∀ value ∈ e.literals ++ e'.literals, ∀ c ∈ value, c.isSurrogate = false)
    (h : g.expressionText e = .ok text) (h' : g.expressionText e' = .ok text) :
    ∃ spelled, e.spelledOut = .ok spelled ∧ e'.spelledOut = .ok spelled ∧
      readExpression? text = some spelled := by
  rw [List.forall_mem_append] at hplain hvalues
  obtain ⟨spelled, hspelled, hread⟩ := readExpression?_expressionText h hplain.1 hvalues.1
  obtain ⟨spelled', hspelled', hread'⟩ := readExpression?_expressionText h' hplain.2 hvalues.2
  cases hread.symm.trans hread'
  exact ⟨spelled, hspelled, hspelled', hread⟩

end Texts

section Instances

def itemGrammar : Grammar :=
  ⟨"items", "item", false, [⟨"item", .text "x", true, false, false, []⟩,
    ⟨"gap", .optional (.text " "), true, true, false, []⟩], []⟩

/-- A quote, a backslash, a line end, a letter with an accent and a face. -/
def marks : String := "\"\\\né😀"

def faces : Expression := .charClass ⟨0x41, 0x1F64F, by decide, by decide⟩

theorem two_le_of_three : ∀ n, some 3 = some n → 2 ≤ n := by
  rintro _ ⟨⟩
  decide

def countedItems : Expression :=
  .sequence [.repetition (.reference "item") ⟨2, some 3, two_le_of_three⟩, .reference "gap",
    .reference "rest", .text marks, faces]

def spelledItems : Expression :=
  .sequence [.sequence [.reference "item", .reference "item", .optional (.reference "item")],
    .reference "gap", .reference "rest", .text marks, faces]

def itemsText : String :=
  "seq(seq($._item, $._item, optional($._item)), inline_gap($), $.rest, " ++
    "\"\\\"\\\\\\n\\u00e9\\ud83d\\ude00\", /[\\u0041-\\u\x7b1F64F\x7d]/)"

/-- A hidden rule, a rule that is hidden and inlined, and a name without a rule. -/
theorem spelledOut_eq_countedItems :
    itemGrammar.expressionText countedItems = .ok itemsText ∧
    itemGrammar.expressionText spelledItems = .ok itemsText ∧
    ∃ spelled, countedItems.spelledOut = .ok spelled ∧ spelledItems.spelledOut = .ok spelled ∧
      readExpression? itemsText = some spelled := by
  have hcounted : itemGrammar.expressionText countedItems = .ok itemsText := rfl
  have hspelled : itemGrammar.expressionText spelledItems = .ok itemsText := rfl
  have hliterals : countedItems.literals ++ spelledItems.literals
      = List.replicate 2 (Codepoint.ofText marks) := rfl
  refine ⟨hcounted, hspelled, ?_⟩
  refine spelledOut_eq_of_expressionText_eq (List.all_eq_true.1 rfl) ?_ hcounted hspelled
  rw [hliterals]
  intro value hvalue
  rw [List.eq_of_mem_replicate hvalue]
  exact fun _ ↦ Codepoint.isSurrogate_of_mem_ofText

end Instances

end Grammar

end AbnfCompiler
