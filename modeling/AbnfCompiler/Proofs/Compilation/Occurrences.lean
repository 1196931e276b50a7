import Mathlib.Data.List.TakeWhile
import AbnfCompiler.Proofs.Compilation.Operands
import AbnfCompiler.Proofs.Expression.SpelledOut
import AbnfCompiler.Proofs.SyntaxTree.Meaning
import AbnfCompiler.Proofs.Text.Digit

/-!
Repeat operators in their spellings. A text is read as bounds exactly if it spells them, blanks
aside; so is an operator of ABNF, unless one of its bounds has more digits than a number may have.
-/
namespace AbnfCompiler

namespace Occurrences

open Text

variable {text : String} {cs ls us : List Char} {bound : Option ℕ} {count : Occurrences}

section Shapes

theorem ofText?_of_digits (hcs : (withoutBlanks text).toList = cs) (h : ∀ c ∈ cs, isDigit c) :
    ofText? text = count? cs >>= fun bound ↦
      match bound with
      | some n => .ok ⟨n, some n⟩
      | none => .error (.notOperator text) := by
  have hback : cs.dropWhile isDigit = [] := List.dropWhile_eq_nil_iff.2 h
  have hfront : cs.takeWhile isDigit = cs := List.takeWhile_eq_self_iff.2 h
  unfold ofText?
  simp only [hcs, hback, hfront]
  rfl

theorem ofText?_of_star (hcs : (withoutBlanks text).toList = ls ++ '*' :: us)
    (hls : ∀ c ∈ ls, isDigit c) (hus : ∀ c ∈ us, isDigit c) :
    ofText? text = count? ls >>= fun least ↦ count? us >>= fun most ↦
      .ok ⟨least.getD 0, most⟩ := by
  have hstar : isDigit '*' = false := by decide
  have hfront : (ls ++ '*' :: us).takeWhile isDigit = ls := by
    rw [List.takeWhile_append_of_pos hls, List.takeWhile_cons, hstar]
    simp
  have hback : (ls ++ '*' :: us).dropWhile isDigit = '*' :: us := by
    rw [List.dropWhile_append_of_pos hls, List.dropWhile_cons, hstar]
    simp
  unfold ofText?
  simp only [hcs, hfront, hback, List.all_eq_true.2 hus, and_self, ↓reduceIte]
  rfl

/-- Only digits, or digits around one star, are read at all. -/
theorem shape_of_ofText? (h : ofText? text = .ok count) :
    (∀ c ∈ (withoutBlanks text).toList, isDigit c) ∨
      ∃ ls us, (withoutBlanks text).toList = ls ++ '*' :: us ∧ (∀ c ∈ ls, isDigit c) ∧
        ∀ c ∈ us, isDigit c := by
  have hsplit := List.takeWhile_append_dropWhile (p := isDigit) (l := (withoutBlanks text).toList)
  have hfront : ∀ c ∈ (withoutBlanks text).toList.takeWhile isDigit, isDigit c :=
    fun c hc ↦ List.mem_takeWhile_imp hc
  unfold ofText? at h
  simp only at h
  split at h
  · next hback =>
    exact Or.inl (List.dropWhile_eq_nil_iff.1 hback)
  · next c us hback =>
    split at h
    · next hstar =>
      obtain ⟨rfl, hus⟩ := hstar
      rw [hback] at hsplit
      exact Or.inr ⟨_, us, hsplit.symm, hfront, List.all_eq_true.1 hus⟩
    · cases h

end Shapes

section Spelling

/-- The digits of a bound, which may be missing. -/
inductive IsBound : List Char → Option ℕ → Prop
  | missing : IsBound [] none
  | given {cs : List Char} {n : ℕ} : DecimalOf cs n → cs.length ≤ 4300 → IsBound cs (some n)

/-- The characters are an operator with these bounds: a number, or a star with the least number
before it and the greatest number behind it. -/
inductive Spells : List Char → Occurrences → Prop
  | exactly {cs : List Char} {n : ℕ} : IsBound cs (some n) → Spells cs ⟨n, some n⟩
  | between {ls us : List Char} {least most : Option ℕ} : IsBound ls least → IsBound us most →
      Spells (ls ++ '*' :: us) ⟨least.getD 0, most⟩

theorem IsBound.exists_digitValue (h : IsBound cs bound) : ∀ c ∈ cs, ∃ d, DigitValue c d := by
  cases h with
  | missing => exact fun c hc ↦ absurd hc List.not_mem_nil
  | given hn => exact hn.exists_digitValue

theorem IsBound.isDigit (h : IsBound cs bound) : ∀ c ∈ cs, isDigit c :=
  fun c hc ↦ isDigit_iff.2 (h.exists_digitValue c hc)

theorem count?_eq_ok_iff (h : ∀ c ∈ cs, isDigit c) : count? cs = .ok bound ↔ IsBound cs bound := by
  unfold count?
  split
  · next hlong =>
    refine iff_of_false nofun fun hbound ↦ ?_
    cases hbound with
    | missing => cases hlong
    | given _ hshort => exact Nat.not_lt.2 hshort hlong
  · next hshort =>
    rw [Except.ok.injEq]
    constructor
    · rintro rfl
      by_cases hnil : cs = []
      · rw [hnil]
        exact .missing
      · obtain ⟨n, hn⟩ := exists_decimalOf hnil h
        rw [decimal?_eq_some_iff.2 hn]
        exact .given hn (Nat.not_lt.1 hshort)
    · intro hbound
      cases hbound with
      | missing => rfl
      | given hn _ => exact decimal?_eq_some_iff.2 hn

theorem ofText?_eq_ok_iff :
    ofText? text = .ok count ↔ Spells (withoutBlanks text).toList count := by
  constructor
  · intro h
    rcases shape_of_ofText? h with hcs | ⟨ls, us, hcs, hls, hus⟩
    · rw [ofText?_of_digits rfl hcs] at h
      obtain ⟨bound, hbound, h⟩ := except_bind_eq_ok.1 h
      cases bound with
      | none => cases h
      | some n =>
        cases h
        exact .exactly ((count?_eq_ok_iff hcs).1 hbound)
    · rw [ofText?_of_star hcs hls hus] at h
      obtain ⟨least, hleast, h⟩ := except_bind_eq_ok.1 h
      obtain ⟨most, hmost, h⟩ := except_bind_eq_ok.1 h
      cases h
      rw [hcs]
      exact .between ((count?_eq_ok_iff hls).1 hleast) ((count?_eq_ok_iff hus).1 hmost)
  · intro h
    generalize hcs : (withoutBlanks text).toList = cs at h
    cases h with
    | exactly hn =>
      rw [ofText?_of_digits hcs hn.isDigit, (count?_eq_ok_iff hn.isDigit).2 hn]
      rfl
    | between hl hu =>
      rw [ofText?_of_star hcs hl.isDigit hu.isDigit, (count?_eq_ok_iff hl.isDigit).2 hl,
        (count?_eq_ok_iff hu.isDigit).2 hu]
      rfl

theorem Spells.not_isBlank (h : Spells cs count) : ∀ c ∈ cs, isBlank c = false := by
  have hbound {cs : List Char} {bound : Option ℕ} (h : IsBound cs bound) :
      ∀ c ∈ cs, isBlank c = false := by
    intro c hc
    obtain ⟨d, hd⟩ := h.exists_digitValue c hc
    exact not_isBlank_of_digitValue hd
  cases h with
  | exactly hn => exact hbound hn
  | between hl hu =>
    rw [List.forall_mem_append, List.forall_mem_cons]
    exact ⟨hbound hl, by decide, hbound hu⟩

/-- A spelling may have blanks anywhere. -/
theorem ofText?_of_spaced (h : Spells cs count) (htext : Spaced cs text.toList) :
    ofText? text = .ok count := by
  rw [ofText?_eq_ok_iff, toList_withoutBlanks, htext.filter h.not_isBlank]
  exact h

end Spelling

section Abnf

theorem count?_of_boundSpelling (h : BoundSpelling cs bound) :
    count? cs = .ok bound ∨ ∃ k, count? cs = .error (.tooLong k) := by
  unfold count?
  split
  · exact Or.inr ⟨_, rfl⟩
  · cases h with
    | missing => exact Or.inl rfl
    | given hn => exact Or.inl (congrArg _ (decimal?_of_numeralOf hn))

theorem isDigit_of_boundSpelling (h : BoundSpelling cs bound) : ∀ c ∈ cs, isDigit c = true := by
  cases h with
  | missing => simp
  | given hn => exact hn.forall_mem (by decide)

/-- An operator is read as its bounds, unless one of them has too many digits. -/
theorem ofText?_of_repeatSpelling {least : ℕ} {most : Option ℕ}
    (h : RepeatSpelling (withoutBlanks text).toList least most) :
    ofText? text = .ok ⟨least, most⟩ ∨ ∃ k, ofText? text = .error (.tooLong k) := by
  generalize hcs : (withoutBlanks text).toList = cs at h
  cases h with
  | exactly hn =>
    rw [ofText?_of_digits hcs (isDigit_of_boundSpelling (.given hn))]
    rcases count?_of_boundSpelling (.given hn) with hcount | ⟨k, hcount⟩
    · rw [hcount]
      exact Or.inl rfl
    · rw [hcount]
      exact Or.inr ⟨k, rfl⟩
  | between hl hu =>
    rw [ofText?_of_star hcs (isDigit_of_boundSpelling hl) (isDigit_of_boundSpelling hu)]
    rcases count?_of_boundSpelling hl with hleast | ⟨k, hleast⟩
    · rcases count?_of_boundSpelling hu with hmost | ⟨k, hmost⟩
      · rw [hleast, hmost]
        exact Or.inl rfl
      · rw [hleast, hmost]
        exact Or.inr ⟨k, rfl⟩
    · rw [hleast]
      exact Or.inr ⟨k, rfl⟩

end Abnf

end Occurrences

namespace Compilation

open Occurrences Text

/-- The bounds that an operator spells, and its element as often as they say. -/
def Counts (operator : SyntaxTree) (e : Expression) (count : Occurrences) (e' : Expression) :
    Prop :=
  Spells (withoutBlanks (operatorText operator)).toList count ∧
    Expression.repeated count.lower (count.upper.map Int.ofNat) e = .ok e'

theorem counted_cases (operator : SyntaxTree) (e : Expression) :
    (∃ count e', Counts operator e count e' ∧ counted operator e = .ok e') ∨
      ((¬ ∃ count e', Counts operator e count e') ∧
        ∃ reason, counted operator e = refuse operator reason) := by
  unfold counted Counts
  cases hread : ofText? (operatorText operator) with
  | error error =>
    refine Or.inr ⟨?_, _, rfl⟩
    rintro ⟨count, e', hspells, -⟩
    rw [ofText?_eq_ok_iff.2 hspells] at hread
    cases hread
  | ok count =>
    have hspells := ofText?_eq_ok_iff.1 hread
    simp only
    cases hrepeated : Expression.repeated count.lower (count.upper.map Int.ofNat) e with
    | ok e' => exact Or.inl ⟨count, e', ⟨hspells, hrepeated⟩, rfl⟩
    | error error =>
      refine Or.inr ⟨?_, _, rfl⟩
      rintro ⟨count', e', hspells', hrepeated'⟩
      rw [ofText?_eq_ok_iff.2 hspells', Except.ok.injEq] at hread
      rw [hread, hrepeated] at hrepeated'
      cases hrepeated'

/-- A text is read as bounds exactly if it spells them, whatever blanks it has, and is refused
otherwise. A repetition with an operator and an element gives the element as often as the operator
says, or else the operator is refused. -/
theorem operator_exact :
    (∀ text count, ofText? text = .ok count ↔ Spells (withoutBlanks text).toList count) ∧
      (∀ text, (∃ error, ofText? text = .error error) ↔
        ¬ ∃ count, Spells (withoutBlanks text).toList count) ∧
      (∀ cs count text, Spells cs count → Spaced cs text.toList → ofText? text = .ok count) ∧
      ∀ (node operator target : SyntaxTree) (e : Expression)
        (translate : SyntaxTree → Drafting Event (Option Expression)),
        node.meaningful = [operator, target] → (translate target).result = .ok (some e) →
        (∃ count e', Counts operator e count e' ∧
          (repetition node (node.meaningful.map fun c ↦ (c, translate c))).result
            = .ok (some e')) ∨
        ((¬ ∃ count e', Counts operator e count e') ∧
          ∃ reason, (repetition node (node.meaningful.map fun c ↦ (c, translate c))).result
            = .error (.unsupported (.of operator reason))) := by
  refine ⟨fun text count ↦ ofText?_eq_ok_iff, ?_, fun cs count text ↦ ofText?_of_spaced, ?_⟩
  · intro text
    simp only [← ofText?_eq_ok_iff]
    cases ofText? text with
    | error error => simp
    | ok count => simp
  · intro node operator target e translate hnode he
    have hresult : (repetition node (node.meaningful.map fun c ↦ (c, translate c))).result
        = some <$> counted operator e := by
      rw [hnode]
      simp only [List.map_cons, List.map_nil, repetition]
      rw [Traced.bind_ok he]
      simp only
      rw [ofExcept_map]
      rfl
    rw [hresult]
    rcases counted_cases operator e with ⟨count, e', hcounts, hcounted⟩ | ⟨hnone, reason, hcounted⟩
    · rw [hcounted]
      exact Or.inl ⟨count, e', hcounts, rfl⟩
    · rw [hcounted]
      exact Or.inr ⟨hnone, reason, rfl⟩

section Instances

/-- The operator `*0`, divided into its tokens. -/
def neverTree : SyntaxTree := .branch "repeat" [.token "*" "*", .token "DIGIT" "0"]

/-- The repetition `*0"x"`. -/
def countedTree : SyntaxTree :=
  .branch "repetition" [neverTree, .leaf "quoted_string" "\"x\""]

theorem spells_twoToFour : Spells ['2', '*', '٤'] ⟨2, some 4⟩ := by
  have htwo : DecimalOf ['2'] 2 := ⟨List.cons_ne_nil _ _, [2], .cons (by decide) .nil, rfl⟩
  have hfour : DecimalOf ['٤'] 4 := ⟨List.cons_ne_nil _ _, [4], .cons (by decide) .nil, rfl⟩
  exact .between (.given htwo (by decide)) (.given hfour (by decide))

/-- Blanks and digits of two scripts are read, a second star is not, and no occurrence at all is
refused. -/
theorem operator_exact_twoToFour :
    ofText? " 2 *\u00A0٤" = .ok ⟨2, some 4⟩ ∧ (∃ error, ofText? "2*3*" = .error error) ∧
      ∃ reason, (repetition countedTree (countedTree.meaningful.map part)).result
        = .error (.unsupported (.of neverTree reason)) := by
  obtain ⟨hread, hrefused, hspaced, hnode⟩ := operator_exact
  refine ⟨?_, ?_, ?_⟩
  · apply hspaced _ _ _ spells_twoToFour
    exact .blank rfl (.keep (.blank rfl (.keep (.blank rfl (.keep .nil)))))
  · rw [hrefused]
    rintro ⟨count, hspells⟩
    have hok := (hread "2*3*" count).2 hspells
    cases hok
  · rcases hnode countedTree neverTree _ (.text "x") (fun c ↦ (part c).2) rfl rfl with
      ⟨count, e', ⟨hspells, hrepeated⟩, -⟩ | ⟨-, hreason⟩
    · have hok := (hread "*0" count).2 hspells
      cases hok
      cases hrepeated
    · exact hreason

end Instances

end Compilation

end AbnfCompiler
