import AbnfCompiler.Proofs.Expression.Language

/-!
Expressions with others in place of the names that they refer to.
-/
namespace AbnfCompiler.Expression

mutual

def subst (σ : String → Expression) : Expression → Expression
  | .reference name => σ name
  | .literal value => .literal value
  | .charClass range => .charClass range
  | .sequence items => .sequence (substAll σ items)
  | .choice items => .choice (substAll σ items)
  | .repetition element bounds => .repetition (subst σ element) bounds
  | .optional element => .optional (subst σ element)

def substAll (σ : String → Expression) : List Expression → List Expression
  | [] => []
  | e :: es => subst σ e :: substAll σ es

end

section Language

variable {σ : String → Expression} {ρ ρ' : String → Language Codepoint}

mutual

/-- What stands for a name has to have the language of the name. -/
theorem language_subst : ∀ {e : Expression}, (∀ n ∈ e.references, (σ n).language ρ' = ρ n) →
    (e.subst σ).language ρ' = e.language ρ
  | .reference name, h => h name (List.mem_singleton_self name)
  | .literal _, _ => rfl
  | .charClass _, _ => rfl
  | .sequence items, h => by
    have hitems := languages_substAll
      (show ∀ n ∈ referencesAll items, (σ n).language ρ' = ρ n from h)
    rw [subst, language, language, hitems]
  | .choice items, h => by
    have hitems := languages_substAll
      (show ∀ n ∈ referencesAll items, (σ n).language ρ' = ρ n from h)
    rw [subst, language, language, hitems]
  | .repetition element bounds, h => by
    have helement := language_subst (e := element) h
    rw [subst, language, language, helement]
  | .optional element, h => by
    have helement := language_subst (e := element) h
    rw [subst, language, language, helement]

theorem languages_substAll : ∀ {es : List Expression},
    (∀ n ∈ referencesAll es, (σ n).language ρ' = ρ n) →
    languages ρ' (substAll σ es) = languages ρ es
  | [], _ => rfl
  | e :: es, h => by
    rw [referencesAll, List.forall_mem_append] at h
    rw [substAll, languages, languages, language_subst h.1, languages_substAll h.2]

end

end Language

section Inverse

variable {σ τ : String → Expression}

mutual

/-- A substitution that brings back every name brings back the expression. -/
theorem subst_subst_eq_self : ∀ {e : Expression},
    (∀ n ∈ e.references, (σ n).subst τ = .reference n) → (e.subst σ).subst τ = e
  | .reference name, h => h name (List.mem_singleton_self name)
  | .literal _, _ => rfl
  | .charClass _, _ => rfl
  | .sequence items, h => by
    have hitems := substAll_substAll_eq_self
      (show ∀ n ∈ referencesAll items, (σ n).subst τ = .reference n from h)
    rw [subst, subst, hitems]
  | .choice items, h => by
    have hitems := substAll_substAll_eq_self
      (show ∀ n ∈ referencesAll items, (σ n).subst τ = .reference n from h)
    rw [subst, subst, hitems]
  | .repetition element bounds, h => by
    have helement := subst_subst_eq_self (e := element) h
    rw [subst, subst, helement]
  | .optional element, h => by
    have helement := subst_subst_eq_self (e := element) h
    rw [subst, subst, helement]

theorem substAll_substAll_eq_self : ∀ {es : List Expression},
    (∀ n ∈ referencesAll es, (σ n).subst τ = .reference n) → substAll τ (substAll σ es) = es
  | [], _ => rfl
  | e :: es, h => by
    rw [referencesAll, List.forall_mem_append] at h
    rw [substAll, substAll, subst_subst_eq_self h.1, substAll_substAll_eq_self h.2]

end

end Inverse

section SpelledOut

variable {σ : String → Expression}

theorem substAll_eq_map (es : List Expression) : substAll σ es = es.map (subst σ) := by
  induction es with
  | nil => rfl
  | cons e es ih => rw [substAll, ih, List.map_cons]

theorem sequenceOf_map_subst (es : List Expression) :
    sequenceOf (es.map (subst σ)) = (sequenceOf es).map (subst σ) := by
  match es with
  | [] | [_] => rfl
  | e₁ :: e₂ :: es =>
    change some (Expression.sequence ((e₁ :: e₂ :: es).map (subst σ)))
      = some (.sequence (substAll σ (e₁ :: e₂ :: es)))
    rw [substAll_eq_map]

theorem repeated_subst (lower : ℤ) (upper : Option ℤ) (e : Expression) :
    repeated lower upper (e.subst σ) = (repeated lower upper e).map (subst σ) := by
  unfold repeated
  split
  · rfl
  · cases upper with
    | none =>
      simp only
      split
      · rfl
      · simp [Except.map, subst, substAll_eq_map]
    | some upper =>
      simp only
      split
      · rfl
      · have hitems : List.replicate lower.toNat (e.subst σ)
              ++ List.replicate (upper - lower).toNat (.optional (e.subst σ))
            = (List.replicate lower.toNat e
              ++ List.replicate (upper - lower).toNat (optional e)).map (subst σ) := by
          rw [List.map_append, List.map_replicate, List.map_replicate]
          rfl
        rw [hitems, sequenceOf_map_subst]
        cases sequenceOf _ <;> rfl

mutual

/-- Repetitions are spelled out alike if what stands for a name has none to be spelled out. -/
theorem spelledOut_subst (hσ : ∀ n, (σ n).spelledOut = .ok (σ n)) : ∀ e : Expression,
    (e.subst σ).spelledOut = e.spelledOut.map (subst σ)
  | .reference name => hσ name
  | .literal _ => rfl
  | .charClass _ => rfl
  | .sequence items => by
    rw [subst, spelledOut, spelledOut, spelledOutAll_substAll hσ items]
    cases spelledOutAll items <;> rfl
  | .choice items => by
    rw [subst, spelledOut, spelledOut, spelledOutAll_substAll hσ items]
    cases spelledOutAll items <;> rfl
  | .optional element => by
    rw [subst, spelledOut, spelledOut, spelledOut_subst hσ element]
    cases spelledOut element <;> rfl
  | .repetition element bounds => by
    rw [subst, spelledOut, spelledOut, spelledOut_subst hσ element]
    cases spelledOut element with
    | error _ => rfl
    | ok e =>
      change (if bounds.isNative then Except.ok (Expression.repetition (e.subst σ) bounds)
          else repeated bounds.least (bounds.most.map Int.ofNat) (e.subst σ))
        = (if bounds.isNative then Except.ok (Expression.repetition e bounds)
          else repeated bounds.least (bounds.most.map Int.ofNat) e).map (subst σ)
      split
      · rfl
      · exact repeated_subst _ _ e

theorem spelledOutAll_substAll (hσ : ∀ n, (σ n).spelledOut = .ok (σ n)) :
    ∀ es : List Expression, spelledOutAll (substAll σ es) = (spelledOutAll es).map (substAll σ)
  | [] => rfl
  | e :: es => by
    rw [substAll, spelledOutAll, spelledOutAll, spelledOut_subst hσ e,
      spelledOutAll_substAll hσ es]
    cases spelledOut e with
    | error _ => rfl
    | ok _ => cases spelledOutAll es <;> rfl

end

end SpelledOut

end AbnfCompiler.Expression
