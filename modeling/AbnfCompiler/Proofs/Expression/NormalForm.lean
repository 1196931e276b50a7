import AbnfCompiler.Proofs.Expression.SpelledOut

/-!
Expressions in normal form: a sequence or a choice has two items or more, a repetition is one that
a generator offers, and the ends of a range are code points in order. An expression in normal form
is written down as it stands, and spelling out a repetition of one gives another.
-/
namespace AbnfCompiler.Expression

mutual

def isNormal : Expression → Bool
  | .reference _ | .literal _ => true
  | .charClass range => range.low ≤ range.high && range.high ≤ 0x10FFFF
  | .sequence items | .choice items => 2 ≤ items.length && allNormal items
  | .repetition element bounds => bounds.isNative && isNormal element
  | .optional element => isNormal element

def allNormal : List Expression → Bool
  | [] => true
  | e :: es => isNormal e && allNormal es

end

variable {e e' : Expression} {es : List Expression}

theorem allNormal_iff : allNormal es ↔ ∀ e ∈ es, e.isNormal := by
  induction es with
  | nil => simp [allNormal]
  | cons e es ih => simp [allNormal, ih]

theorem isNormal_charClass (range : CodeRange) : (charClass range).isNormal := by
  rw [isNormal, Bool.and_eq_true]
  exact ⟨decide_eq_true range.ordered, decide_eq_true range.inside⟩

theorem isNormal_sequence (hlength : 2 ≤ es.length) (hes : ∀ x ∈ es, x.isNormal) :
    (sequence es).isNormal := by
  rw [isNormal, allNormal_iff.2 hes, Bool.and_true]
  exact decide_eq_true hlength

theorem isNormal_sequenceOf (hes : ∀ x ∈ es, x.isNormal) (h : sequenceOf es = some e) :
    e.isNormal := by
  match es, h with
  | [_], h =>
    cases h
    exact hes _ (List.mem_singleton_self _)
  | _ :: _ :: es, h =>
    cases h
    exact isNormal_sequence (Nat.le_add_left 2 es.length) hes

theorem isNormal_choiceOf (hes : ∀ x ∈ es, x.isNormal) (h : choiceOf es = some e) :
    e.isNormal := by
  match es, h with
  | [_], h =>
    cases h
    exact hes _ (List.mem_singleton_self _)
  | _ :: _ :: es, h =>
    cases h
    exact isNormal_sequence (Nat.le_add_left 2 es.length) hes

theorem isNormal_repetition {n : ℕ} (he : e.isNormal) (hn : n ≤ 1) :
    (repetition e (.atLeast n)).isNormal := by
  rw [isNormal, he, Bool.and_true]
  exact decide_eq_true hn

theorem isNormal_repeated {lower : ℤ} {upper : Option ℤ} (he : e.isNormal)
    (h : repeated lower upper e = .ok e') : e'.isNormal := by
  have hcopies : ∀ n, ∀ x ∈ List.replicate n e, x.isNormal := by
    intro n x hx
    rw [List.eq_of_mem_replicate hx]
    exact he
  rcases repeated_cases h with ⟨-, hlower, rfl⟩ | ⟨-, hlower, rfl⟩ | ⟨n, -, -, hspelled⟩
  · exact isNormal_repetition he (by omega)
  · -- With two copies or more, and the repetition behind them, there are two items at least.
    have hitems : ∀ x ∈ List.replicate lower.toNat e ++ [.repetition e (.atLeast 0)],
        x.isNormal := by
      refine List.forall_mem_append.2 ⟨hcopies _, List.forall_mem_singleton.2 ?_⟩
      exact isNormal_repetition he (Nat.zero_le 1)
    refine isNormal_sequence ?_ hitems
    rw [List.length_append, List.length_replicate, List.length_singleton]
    omega
  · refine isNormal_sequenceOf (List.forall_mem_append.2 ⟨hcopies _, ?_⟩) hspelled
    intro x hx
    rw [List.eq_of_mem_replicate hx]
    exact he

mutual

theorem spelledOut_of_isNormal : ∀ {e : Expression}, e.isNormal → e.spelledOut = .ok e
  | .reference _, _ => rfl
  | .literal _, _ => rfl
  | .charClass _, _ => rfl
  | .sequence items, h => by
    rw [isNormal, Bool.and_eq_true] at h
    rw [spelledOut, spelledOutAll_of_allNormal h.2]
    rfl
  | .choice items, h => by
    rw [isNormal, Bool.and_eq_true] at h
    rw [spelledOut, spelledOutAll_of_allNormal h.2]
    rfl
  | .optional element, h => by
    rw [spelledOut, spelledOut_of_isNormal (e := element) h]
    rfl
  | .repetition element bounds, h => by
    rw [isNormal, Bool.and_eq_true] at h
    rw [spelledOut, spelledOut_of_isNormal h.2, except_ok_bind, if_pos h.1]
    rfl

theorem spelledOutAll_of_allNormal : ∀ {es : List Expression}, allNormal es →
    spelledOutAll es = .ok es
  | [], _ => rfl
  | e :: es, h => by
    rw [allNormal, Bool.and_eq_true] at h
    rw [spelledOutAll, spelledOut_of_isNormal h.1, spelledOutAll_of_allNormal h.2]
    rfl

end

theorem spelled_of_isNormal (h : e.isNormal) : e.spelledOut = .ok e.spelled := by
  rw [spelled, spelledOut_of_isNormal h]

end AbnfCompiler.Expression
