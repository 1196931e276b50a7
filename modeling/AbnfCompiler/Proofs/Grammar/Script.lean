import AbnfCompiler.Proofs.Grammar.Language
import AbnfCompiler.Proofs.Script.Literal
import AbnfCompiler.Proofs.Script.Term

/-!
The text of a grammar is a script: a constant for every inlined rule, and an exported grammar with
an entry for every other rule.
-/
namespace AbnfCompiler.Grammar

open RuleName Script

variable (g : Grammar)

mutual

/-- The term of an expression whose repetitions are native. -/
def term : Expression → Term
  | .reference name =>
    if g.isInlined name then .call (helper name) [.path ["$"]] else .path ["$", g.symbol name]
  | .literal value => .text (value.map fun c ↦ Char.ofNat c.val)
  | .charClass range => .range range.low range.high
  | .sequence items => .call "seq" (terms items)
  | .choice items => .call "choice" (terms items)
  | .repetition element bounds =>
    .call (if bounds.least = 1 then "repeat1" else "repeat") [term element]
  | .optional element => .call "optional" [term element]

def terms : List Expression → List Term
  | [] => []
  | e :: es => term e :: terms es

end

variable {g : Grammar}

section Expressions

theorem expressionText_eq_ok {e : Expression} {text : String} :
    g.expressionText e = .ok text ↔ ∃ e', e.spelledOut = .ok e' ∧ text = g.nativeText e' := by
  rw [expressionText, except_bind_eq_ok]
  refine exists_congr fun e' ↦ and_congr_right fun _ ↦ ?_
  constructor
  · intro h
    cases h
    rfl
  · rintro rfl
    rfl

theorem isWordChar_of_isNameChar {c : Char} (h : isNameChar c) : isWordChar c := by
  rw [isNameChar] at h
  rw [isWordChar, h]
  rfl

theorem ne_dot_of_isNameChar {c : Char} (h : isNameChar c) : c ≠ '.' := by
  rintro rfl
  cases h

/-- Whatever a name is written with, it is written in characters of names. -/
theorem isNameChar_symbol (g : Grammar) {name : String} (h : isPlain (normal name)) :
    (g.symbol name).toList ≠ [] ∧ ∀ c ∈ (g.symbol name).toList, isNameChar c := by
  obtain ⟨c, cs, hlist, -, hall⟩ := exists_cons_of_isPlain h
  rw [symbol]
  split
  · rw [RuleName.hidden, String.toList_ofList, hlist]
    exact ⟨List.cons_ne_nil _ _, List.forall_mem_cons.2 ⟨rfl, hall⟩⟩
  · rw [hlist]
    exact ⟨List.cons_ne_nil _ _, hall⟩

theorem isNameChar_helper {name : String} (h : isPlain (normal name)) :
    ∀ c ∈ (helper name).toList, isNameChar c := by
  obtain ⟨c, cs, hlist, -, hall⟩ := exists_cons_of_isPlain h
  rw [helper, String.toList_append, hlist]
  exact List.forall_mem_append.2 ⟨List.all_eq_true.1 rfl, hall⟩

theorem Presentable.isPlain_normal_name (hg : g.Presentable) {r : Rule} (hr : r ∈ g.rules) :
    isPlain (normal r.name) := by
  rw [hg.normal_name hr]
  exact (hg.plain r hr).1

theorem Presentable.isPlain_normal (hg : g.Presentable) {name : String}
    (h : (g.resolve? name).isSome) : isPlain (normal name) := by
  obtain ⟨r, hr⟩ := Option.isSome_iff_exists.1 h
  obtain ⟨hr, hname⟩ := hg.resolve?_eq_some.1 hr
  have hplain := hg.isPlain_normal_name hr
  rwa [hname, normal_normal] at hplain

theorem reads_call {f : String} {args : List String} {ts : List Term} (hne : f.toList ≠ [])
    (hf : ∀ c ∈ f.toList, isNameChar c) (hargs : List.Forall₂ Reads (args.map String.toList) ts) :
    Reads (call f args).toList (.call f ts) := by
  have hread := Reads.call hne (fun c hc ↦ isWordChar_of_isNameChar (hf c hc))
    (fun hdot ↦ ne_dot_of_isNameChar (hf _ hdot) rfl) hargs
  rw [String.ofList_toList] at hread
  have hchars : (call f args).toList
      = f.toList ++ '(' :: ([',', ' '].intercalate (args.map String.toList) ++ [')']) := by
    simp [call, String.toList_intercalate]
  rw [hchars]
  exact hread

theorem reads_parameter : Reads ['$'] (.path ["$"]) :=
  fun _ _ ↦ leads_token (lexes_word (List.cons_ne_nil _ _) (List.all_eq_true.1 rfl)) rfl

theorem reads_property {cs : List Char} (h : ∀ c ∈ cs, isNameChar c) :
    Reads ('$' :: '.' :: cs) (.path ["$", String.ofList cs]) := by
  intro ss stack
  have hword : ∀ c ∈ '$' :: '.' :: cs, isWordChar c :=
    List.forall_mem_cons.2 ⟨rfl, List.forall_mem_cons.2 ⟨rfl,
      fun c hc ↦ isWordChar_of_isNameChar (h c hc)⟩⟩
  have hpath := pathOf_property fun hdot ↦ ne_dot_of_isNameChar (h _ hdot) rfl
  exact leads_token (lexes_word (List.cons_ne_nil _ _) hword) (by rw [hpath]; rfl)

theorem reads_reference (g : Grammar) {name : String} (h : isPlain (normal name)) :
    Reads (g.reference name).toList (g.term (.reference name)) := by
  rw [reference, term]
  split
  · have hargs : List.Forall₂ Reads (["$"].map String.toList) [.path ["$"]] :=
      .cons reads_parameter .nil
    have hread := reads_call (by simp [helper]) (isNameChar_helper h) hargs
    rw [call, String.intercalate_singleton, String.append_assoc, String.append_assoc] at hread
    exact hread
  · have hread := reads_property (g.isNameChar_symbol h).2
    rw [String.ofList_toList] at hread
    rw [String.toList_append]
    exact hread

mutual

/-- An expression is read as its term, whether or not the names in it are defined. -/
theorem reads_nativeText (g : Grammar) : ∀ {e : Expression}, e.isWritable →
    (∀ n ∈ e.references, isPlain (normal n)) → Reads (g.nativeText e).toList (g.term e)
  | .reference name, _, href => g.reads_reference (href name (by simp [Expression.references]))
  | .literal value, hw, _ => by
    rw [Expression.isWritable, List.all_eq_true] at hw
    have hclosed := closed_jsonString fun c hc ↦ by simpa using hw c hc
    exact fun _ _ ↦ leads_token hclosed.lexes rfl
  | .charClass range, _, _ => fun _ _ ↦
    leads_token (closed_classText range.low range.high).lexes rfl
  | .sequence items, hw, href => by
    have hargs := g.reads_nativeTexts (show Expression.allWritable items from hw) href
    exact reads_call (List.cons_ne_nil _ _) (List.all_eq_true.1 rfl) hargs
  | .choice items, hw, href => by
    have hargs := g.reads_nativeTexts (show Expression.allWritable items from hw) href
    exact reads_call (List.cons_ne_nil _ _) (List.all_eq_true.1 rfl) hargs
  | .repetition element bounds, hw, href => by
    rw [Expression.isWritable, Bool.and_eq_true] at hw
    have he := g.reads_nativeText hw.2 href
    rw [nativeText, term]
    split
    · exact reads_call (List.cons_ne_nil _ _) (List.all_eq_true.1 rfl) (.cons he .nil)
    · exact reads_call (List.cons_ne_nil _ _) (List.all_eq_true.1 rfl) (.cons he .nil)
  | .optional element, hw, href => by
    have he := g.reads_nativeText (show element.isWritable from hw) href
    exact reads_call (List.cons_ne_nil _ _) (List.all_eq_true.1 rfl) (.cons he .nil)

theorem reads_nativeTexts (g : Grammar) : ∀ {es : List Expression},
    Expression.allWritable es → (∀ n ∈ Expression.referencesAll es, isPlain (normal n)) →
    List.Forall₂ Reads ((g.nativeTexts es).map String.toList) (g.terms es)
  | [], _, _ => .nil
  | e :: es, hw, href => by
    rw [Expression.allWritable, Bool.and_eq_true] at hw
    rw [Expression.referencesAll, List.forall_mem_append] at href
    exact .cons (g.reads_nativeText hw.1 href.1) (g.reads_nativeTexts hw.2 href.2)

end

end Expressions

end AbnfCompiler.Grammar
