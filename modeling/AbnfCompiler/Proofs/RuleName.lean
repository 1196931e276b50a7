import AbnfCompiler.Proofs.Text.Blank
import AbnfCompiler.RuleName

/-!
The normal form of a name is its own normal form, and so is a plain name. A symbol and the name of
a helper tell which rule they belong to.
-/
namespace AbnfCompiler.RuleName

theorem isBlank_plainMark (c : Char) : Text.isBlank (plainMark c) = Text.isBlank c := by
  unfold plainMark
  split
  · next h =>
    subst h
    rfl
  · rfl

theorem plainMark_plainMark (c : Char) : plainMark (plainMark c) = plainMark c := by
  by_cases h : c = '-'
  · subst h
    rfl
  · have hc : plainMark c = c := if_neg h
    rw [hc, hc]

@[simp] theorem normal_normal (name : String) : normal (normal name) = normal name := by
  rw [← String.toList_inj, toList_normal, toList_normal, Text.trimBoth_map isBlank_plainMark,
    Text.trimBoth_trimBoth, List.map_map]
  exact List.map_congr_left fun c _ ↦ plainMark_plainMark c

section Plain

def isNameChar (c : Char) : Bool := c.isAlphanum || c == '_'

/-- Whether a name is a letter, followed by letters, digits and underscores. -/
def isPlain (name : String) : Bool :=
  match name.toList with
  | c :: cs => c.isAlpha && cs.all isNameChar
  | [] => false

variable {c : Char} {name : String}

theorem toNat_of_isNameChar (h : isNameChar c) : 0x30 ≤ c.toNat ∧ c.toNat ≤ 0x7A := by
  delta isNameChar Char.isAlphanum Char.isAlpha Char.isUpper Char.isLower Char.isDigit at h
  simp only [Bool.or_eq_true, Bool.and_eq_true, decide_eq_true_eq, beq_iff_eq,
    UInt32.le_iff_toNat_le, ge_iff_le] at h
  have hval : c.toNat = c.val.toNat := rfl
  rcases h with ((h | h) | h) | rfl
  · have hupper : 'A'.val.toNat = 65 ∧ 'Z'.val.toNat = 90 := ⟨rfl, rfl⟩
    omega
  · have hlower : 'a'.val.toNat = 97 ∧ 'z'.val.toNat = 122 := ⟨rfl, rfl⟩
    omega
  · have hdigit : '0'.val.toNat = 48 ∧ '9'.val.toNat = 57 := ⟨rfl, rfl⟩
    omega
  · decide

theorem isBlank_of_isNameChar (h : isNameChar c) : Text.isBlank c = false := by
  have hc := toNat_of_isNameChar h
  simp only [Text.isBlank, Text.blanks, Text.Ranges.covers, List.any_cons, List.any_nil,
    Bool.or_false, Bool.or_eq_false_iff, Bool.and_eq_false_iff, decide_eq_false_iff_not]
  omega

theorem plainMark_of_isNameChar (h : isNameChar c) : plainMark c = c := by
  refine if_neg fun heq ↦ ?_
  rw [heq] at h
  cases h

theorem exists_cons_of_isPlain (h : isPlain name) :
    ∃ c cs, name.toList = c :: cs ∧ c.isAlpha ∧ ∀ x ∈ c :: cs, isNameChar x := by
  unfold isPlain at h
  split at h
  · next c cs hname =>
    rw [Bool.and_eq_true, List.all_eq_true] at h
    refine ⟨c, cs, hname, h.1, List.forall_mem_cons.2 ⟨?_, h.2⟩⟩
    rw [isNameChar, Char.isAlphanum, h.1, Bool.true_or, Bool.true_or]
  · cases h

theorem toList_normal_of_forall (h : ∀ c ∈ name.toList, Text.isBlank c = false) :
    (normal name).toList = name.toList.map plainMark := by
  rw [toList_normal, Text.trimBoth_eq_self (fun c hc ↦ h c (List.mem_of_mem_head? hc))
    fun c hc ↦ h c (List.mem_of_mem_getLast? hc)]

theorem normal_of_isPlain (h : isPlain name) : normal name = name := by
  obtain ⟨c, cs, hname, -, hall⟩ := exists_cons_of_isPlain h
  rw [← hname] at hall
  rw [← String.toList_inj, toList_normal_of_forall fun x hx ↦ isBlank_of_isNameChar (hall x hx)]
  exact (List.map_congr_left fun x hx ↦ plainMark_of_isNameChar (hall x hx)).trans (List.map_id _)

/-- Whether a name is a letter, followed by letters, digits and hyphens. -/
def isAbnf (name : String) : Bool :=
  match name.toList with
  | c :: cs => c.isAlpha && cs.all fun x ↦ x.isAlphanum || x == '-'
  | [] => false

theorem isPlain_normal_of_isAbnf (h : isAbnf name) : isPlain (normal name) := by
  unfold isAbnf at h
  split at h
  · next c cs hname =>
    rw [Bool.and_eq_true, List.all_eq_true] at h
    obtain ⟨hletter, hrest⟩ := h
    have hfirst : isNameChar c := by
      rw [isNameChar, Char.isAlphanum, hletter, Bool.true_or, Bool.true_or]
    have hchars : ∀ x ∈ cs, Text.isBlank x = false ∧ isNameChar (plainMark x) := by
      intro x hx
      rcases Bool.or_eq_true_iff.1 (hrest x hx) with halnum | hhyphen
      · have hname : isNameChar x := by rw [isNameChar, halnum, Bool.true_or]
        rw [plainMark_of_isNameChar hname]
        exact ⟨isBlank_of_isNameChar hname, hname⟩
      · rw [beq_iff_eq.1 hhyphen]
        decide
    have hnormal : (normal name).toList = c :: cs.map plainMark := by
      rw [toList_normal_of_forall, hname, List.map_cons, plainMark_of_isNameChar hfirst]
      rw [hname]
      exact List.forall_mem_cons.2 ⟨isBlank_of_isNameChar hfirst, fun x hx ↦ (hchars x hx).1⟩
    rw [isPlain, hnormal, Bool.and_eq_true, List.all_map, List.all_eq_true]
    exact ⟨hletter, fun x hx ↦ (hchars x hx).2⟩
  · cases h

end Plain

section Symbols

variable {name : String}

/-- The name of the rule that a helper stands for. -/
def ofHelper (f : String) : String := String.ofList (f.toList.drop "inline_".length)

/-- The name of the rule with a symbol, which may be the symbol of a hidden rule. -/
def ofSymbol (symbol : String) : String :=
  if symbol.toList.head? = some hiddenMark then String.ofList symbol.toList.tail else symbol

theorem ofHelper_helper (name : String) : ofHelper (helper name) = normal name := by
  rw [ofHelper, helper, String.toList_append, List.drop_left' String.length_toList,
    String.ofList_toList]

theorem ofSymbol_of_isPlain (h : isPlain name) : ofSymbol name = name := by
  obtain ⟨c, cs, hname, hc, -⟩ := exists_cons_of_isPlain h
  rw [ofSymbol, if_neg]
  rw [hname, List.head?_cons, Option.some.injEq]
  rintro rfl
  cases hc

theorem ofSymbol_hidden (name : String) : ofSymbol (hidden name) = normal name := by
  rw [ofSymbol, hidden, String.toList_ofList, List.head?_cons, if_pos rfl, List.tail_cons,
    String.ofList_toList]

end Symbols

end AbnfCompiler.RuleName
