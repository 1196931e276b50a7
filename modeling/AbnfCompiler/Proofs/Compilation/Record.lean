import AbnfCompiler.Compilation.Basic
import AbnfCompiler.Proofs.Compilation.Operands

/-!
What is recorded while an expression is compiled. Every record is about a node of the tree, and a
tree that has no expression leaves a record. A violation is about a node of the tree as well.
-/
namespace AbnfCompiler

open SyntaxTree

/-- The record is about a node of the tree. -/
def Unsupported.IsAbout (u : Unsupported) (t : SyntaxTree) : Prop :=
  ∃ n reason, t.Contains n ∧ u = .of n reason

theorem Unsupported.IsAbout.of_contains {u : Unsupported} {t c : SyntaxTree} (h : t.Contains c)
    (hu : u.IsAbout c) : u.IsAbout t := by
  obtain ⟨n, reason, hn, hrecord⟩ := hu
  exact ⟨n, reason, h.trans hn, hrecord⟩

namespace Compilation

variable {α β : Type} {t c n : SyntaxTree} {es : List Expression} {e : Option Expression}

section Refusals

/-- Only nodes of the tree are refused. -/
def RefusesWithin (t : SyntaxTree) (x : Except Refusal α) : Prop :=
  ∀ u, x = .error (.unsupported u) → u.IsAbout t

/-- Why a construct can be a violation. -/
def constructCauses : List Violation.Cause :=
  [.noChildren, .wrapper, .repetition, .option, .numeral, .noTokens]

/-- The answer of a construct about nodes of the tree, or about the number of one. -/
inductive Refusal.IsWithin (t : SyntaxTree) : Refusal → Prop
  | refused {n : SyntaxTree} {reason : Reason} :
      t.Contains n → IsWithin t (.unsupported (.of n reason))
  | violated {n : SyntaxTree} {cause : Violation.Cause} :
      t.Contains n → cause ∈ constructCauses → IsWithin t (.failure (.violation ⟨cause, n⟩))
  | notHex {digits : String} : IsWithin t (.failure (.notHex digits))
  | notCodepoint : IsWithin t (.failure .notCodepoint)

theorem Refusal.IsWithin.of_contains {r : Refusal} (h : t.Contains n) (hr : r.IsWithin n) :
    r.IsWithin t := by
  cases hr with
  | refused hn => exact .refused (h.trans hn)
  | violated hn hcause => exact .violated (h.trans hn) hcause
  | notHex => exact .notHex
  | notCodepoint => exact .notCodepoint

/-- A construct has a value, or an answer about nodes of the tree. -/
def EndsWithin (t : SyntaxTree) (x : Except Refusal α) : Prop :=
  ∀ r, x = .error r → r.IsWithin t

theorem EndsWithin.refusesWithin {x : Except Refusal α} (hx : EndsWithin t x) :
    RefusesWithin t x := by
  intro u hu
  cases hx _ hu with
  | @refused n reason hn => exact ⟨n, reason, hn, rfl⟩

theorem endsWithin_ok (a : α) : EndsWithin t (.ok a) := nofun

theorem endsWithin_error {r : Refusal} (h : r.IsWithin t) :
    EndsWithin t (.error r : Except Refusal α) := by
  intro r' hr
  cases hr
  exact h

theorem endsWithin_refuse (h : t.Contains n) (reason : Reason) :
    EndsWithin t (refuse n reason : Except Refusal α) :=
  endsWithin_error (.refused h)

theorem endsWithin_violate {cause : Violation.Cause} (h : cause ∈ constructCauses) :
    EndsWithin t (violate t cause : Except Refusal α) :=
  endsWithin_error (.violated .refl h)

theorem EndsWithin.bind {x : Except Refusal α} {g : α → Except Refusal β}
    (hx : EndsWithin t x) (hg : ∀ a, EndsWithin t (g a)) : EndsWithin t (x >>= g) := by
  cases x with
  | ok a => exact hg a
  | error r => exact endsWithin_error (hx r rfl)

theorem EndsWithin.map {x : Except Refusal α} (hx : EndsWithin t x) (g : α → β) :
    EndsWithin t (g <$> x) := by
  rw [← bind_pure_comp]
  exact hx.bind fun a ↦ endsWithin_ok (g a)

theorem EndsWithin.of_contains {x : Except Refusal α} (h : t.Contains n)
    (hx : EndsWithin n x) : EndsWithin t x :=
  fun r hr ↦ (hx r hr).of_contains h

theorem endsWithin_codepoint (k : Int) : EndsWithin t (codepoint k) := by
  unfold codepoint
  split
  · split
    · exact endsWithin_ok _
    · exact endsWithin_error .notCodepoint
  · exact endsWithin_error .notCodepoint

theorem endsWithin_pairs (pairs : List (List Char)) :
    EndsWithin t (pairs.mapM pairValue) := by
  induction pairs with
  | nil => exact endsWithin_ok []
  | cons ds pairs ih =>
    rw [List.mapM_cons]
    refine EndsWithin.bind ?_ fun c ↦ ih.bind fun cs ↦ endsWithin_ok (c :: cs)
    unfold pairValue
    split
    · exact endsWithin_codepoint _
    · exact endsWithin_error .notHex

theorem endsWithin_hexNumber (ds : List Char) : EndsWithin t (hexNumber t ds) := by
  unfold hexNumber
  split
  · exact endsWithin_refuse .refl _
  · split
    · exact endsWithin_refuse .refl _
    · exact endsWithin_ok _

theorem endsWithin_hexRange (ts : List HexToken) : EndsWithin t (hexRange t ts) := by
  unfold hexRange
  simp only
  split
  · exact endsWithin_refuse .refl _
  · refine (endsWithin_hexNumber _).bind fun low ↦ (endsWithin_hexNumber _).bind fun high ↦ ?_
    split
    · exact endsWithin_ok _
    · exact endsWithin_refuse .refl _

theorem endsWithin_hexValue (t : SyntaxTree) : EndsWithin t (hexValue t) := by
  unfold hexValue
  simp only
  split
  · exact endsWithin_violate (by decide)
  · split
    · exact endsWithin_hexRange _
    · split
      · exact (endsWithin_pairs _).bind fun cs ↦ endsWithin_ok _
      · split
        · refine (endsWithin_hexNumber _).bind fun k ↦ ?_
          exact (endsWithin_codepoint k).bind fun c ↦ endsWithin_ok _
        · exact endsWithin_refuse .refl _

theorem endsWithin_numeral (t : SyntaxTree) : EndsWithin t (numeral t) := by
  unfold numeral
  split
  · next percent value hchildren =>
    have hvalue : t.Contains value := .single (by simp [Holds, hchildren])
    split
    · exact endsWithin_violate (by decide)
    · split
      · exact (endsWithin_hexValue value).of_contains hvalue
      · exact endsWithin_refuse hvalue _
  · exact endsWithin_violate (by decide)

theorem endsWithin_counted {operator : SyntaxTree} (h : t.Contains operator) (e : Expression) :
    EndsWithin t (counted operator e) := by
  unfold counted
  split
  · exact endsWithin_refuse h _
  · split
    · exact endsWithin_refuse h _
    · exact endsWithin_ok _

theorem endsWithin_combine (t : SyntaxTree) (es : List Expression) :
    EndsWithin t (combine t es) := by
  unfold combine
  cases construct? t.kind with
  | none => exact endsWithin_refuse .refl _
  | some construct =>
    cases construct with
    | elements | quotedString => exact endsWithin_ok _
    | numeral => exact (endsWithin_numeral t).map some
    | hexValue => exact (endsWithin_hexValue t).map some
    | alternation | concatenation =>
      simp only
      split
      · exact endsWithin_violate (by decide)
      · exact endsWithin_ok _
    | option =>
      simp only
      split
      · exact endsWithin_ok _
      · exact endsWithin_violate (by decide)
    | repetition =>
      simp only
      split
      · exact endsWithin_ok _
      · next operator c hmeaningful =>
        have hmem : operator ∈ t.meaningful := by simp [hmeaningful]
        split
        · exact endsWithin_ok _
        · exact (endsWithin_counted (.single (holds_of_mem_meaningful hmem)) _).map some
      · exact endsWithin_violate (by decide)
    | element =>
      simp only
      split
      · exact endsWithin_violate (by decide)
      · split <;> exact endsWithin_ok _
    | wrapper =>
      simp only
      split
      · exact endsWithin_ok _
      · split
        · exact endsWithin_ok _
        · exact endsWithin_violate (by decide)

/-- A violation within an expression is about a node of it, with the cause of a construct. -/
theorem violation_of_expression? {v : Violation}
    (h : (expression? t).result = .error (.violation v)) :
    t.Contains v.node ∧ v.cause ∈ constructCauses := by
  induction t using SyntaxTree.induction with
  | h t ih =>
    rcases expression?_eq_error.1 h with ⟨before, c, after, hsplit, -, hc⟩ | ⟨es, -, hcombine⟩
    · have hmem : c ∈ operands t := by simp [hsplit]
      have hholds := holds_of_mem_meaningful (mem_meaningful_of_mem_operands hmem)
      obtain ⟨hnode, hcause⟩ := ih c hholds hc
      exact ⟨.head hholds hnode, hcause⟩
    · cases endsWithin_combine t es _ hcombine with
      | violated hnode hcause => exact ⟨hnode, hcause⟩

end Refusals

section Trace

theorem mem_unsupported_flatMap {ts : List SyntaxTree} {u : Unsupported} :
    u ∈ unsupported (ts.flatMap fun c ↦ (expression? c).trace) ↔
      ∃ c ∈ ts, u ∈ unsupported (expression? c).trace := by
  unfold unsupported
  rw [List.filterMap_flatMap, List.mem_flatMap]

theorem isAbout_of_mem_trace (t : SyntaxTree) :
    ∀ u ∈ unsupported (expression? t).trace, u.IsAbout t := by
  induction t using SyntaxTree.induction with
  | h t ih =>
    -- If an operand fails, the ones behind it leave nothing.
    have hoperands : ∀ done, done <+: operands t →
        ∀ u ∈ unsupported (done.flatMap fun c ↦ (expression? c).trace), u.IsAbout t := by
      intro done hdone u hu
      obtain ⟨c, hc, hu⟩ := mem_unsupported_flatMap.1 hu
      have hholds := holds_of_mem_meaningful (mem_meaningful_of_mem_operands (hdone.subset hc))
      exact (ih c hholds u hu).of_contains (.single hholds)
    intro u hu
    rcases expression?_cases t with
      ⟨found, e, -, -, ht⟩ | ⟨es, v, hcombine, ht⟩ | ⟨done, f, hdone, ht⟩
    · rw [ht] at hu
      exact hoperands _ List.prefix_rfl u hu
    · rw [ht, unsupported_append, List.mem_append] at hu
      rcases hu with hu | hu
      · exact hoperands _ List.prefix_rfl u hu
      · cases List.mem_singleton.1 hu
        exact (endsWithin_combine t es).refusesWithin u hcombine
    · rw [ht] at hu
      exact hoperands _ hdone u hu

/-- A node that is not refused but has no expression has operands, and none of them has one. -/
theorem operands_of_combine (hfull : t.kind = "elements" → t.meaningful ≠ [])
    (h : combine t es = .ok none) : operands t ≠ [] ∧ es = [] := by
  have hmap {x : Except Refusal Expression} : some <$> x ≠ .ok none := by
    cases x <;> nofun
  unfold combine at h
  unfold operands
  cases hconstruct : construct? t.kind with
  | none =>
    rw [hconstruct] at h
    cases h
  | some construct =>
    rw [hconstruct] at h
    cases construct with
    | elements =>
      simp only [Except.ok.injEq, Expression.sequenceOf_eq_none] at h
      refine ⟨hfull ?_, h⟩
      simpa [constructs] using mem_of_construct? hconstruct
    | alternation | concatenation =>
      simp only at h
      split at h
      · cases h
      · next hmeaningful =>
        simp only [Except.ok.injEq, Expression.sequenceOf_eq_none,
          Expression.choiceOf_eq_none] at h
        exact ⟨hmeaningful, h⟩
    | repetition =>
      simp only at h ⊢
      split at h
      · next c hmeaningful => simp_all
      · next operator c hmeaningful =>
        split at h
        · simp_all
        · exact absurd h hmap
      · cases h
    | option =>
      simp only at h ⊢
      split at h
      · simp_all
      · cases h
    | element =>
      simp only at h ⊢
      split at h
      · cases h
      · split at h
        · cases h
        · simp_all
    | numeral | hexValue => exact absurd h hmap
    | quotedString => cases h
    | wrapper =>
      simp only at h ⊢
      split at h
      · simp_all
      · split at h
        · cases h
        · cases h

/-- A tree without empty elements has an expression, unless something in it is recorded. -/
theorem unsupported_ne_nil (hfull : ∀ n, t.Contains n → n.kind = "elements" → n.meaningful ≠ [])
    (h : (expression? t).result = .ok none) : unsupported (expression? t).trace ≠ [] := by
  induction t using SyntaxTree.induction with
  | h t ih =>
    rcases expression?_cases t with
      ⟨found, e, hfound, hcombine, ht⟩ | ⟨es, v, -, ht⟩ | ⟨done, f, -, ht⟩
    · rw [ht] at h ⊢
      cases h
      obtain ⟨hoperands, hes⟩ := operands_of_combine (hfull t .refl) hcombine
      -- No operand has an expression, so that the first one leaves a record.
      obtain ⟨c, cs, hsplit⟩ := List.exists_cons_of_ne_nil hoperands
      rw [hsplit] at hfound ⊢
      obtain ⟨e, es, hc, -, rfl⟩ := List.forall₂_cons_left_iff.1 hfound
      have hnone : e = none := by simpa using List.flatMap_eq_nil_iff.1 hes e (by simp)
      have hholds : t.Holds c :=
        holds_of_mem_meaningful (mem_meaningful_of_mem_operands (by simp [hsplit]))
      have hne := ih c hholds (fun n hn ↦ hfull n (.head hholds hn)) (hnone ▸ hc)
      rw [List.flatMap_cons, unsupported_append]
      exact List.append_ne_nil_of_left_ne_nil hne _
    · rw [ht, unsupported_append]
      exact List.append_ne_nil_of_right_ne_nil _ (List.cons_ne_nil v [])
    · rw [ht] at h
      cases h

end Trace

end Compilation

end AbnfCompiler
