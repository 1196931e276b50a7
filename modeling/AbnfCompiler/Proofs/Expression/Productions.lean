import Mathlib.Order.FixedPoints
import AbnfCompiler.Proofs.Expression.Language

/-!
Productions give names expressions. The languages that they generate are the least ones in which
every name has all words of its expressions.
-/
namespace AbnfCompiler

open scoped Computability

namespace Expression

variable {ρ σ : String → Language Codepoint}

mutual

theorem language_mono (h : ρ ≤ σ) : ∀ e : Expression, e.language ρ ≤ e.language σ
  | .reference name => h name
  | .literal _ => le_rfl
  | .charClass _ => le_rfl
  | .sequence items => (languages_mono h items).1
  | .choice items => (languages_mono h items).2
  | .repetition element _ => occurring_mono (language_mono h element)
  | .optional element => add_le_add le_rfl (language_mono h element)

theorem languages_mono (h : ρ ≤ σ) : ∀ es : List Expression,
    (languages ρ es).prod ≤ (languages σ es).prod ∧ (languages ρ es).sum ≤ (languages σ es).sum
  | [] => ⟨le_rfl, le_rfl⟩
  | e :: es => by
    obtain ⟨hprod, hsum⟩ := languages_mono h es
    have he := language_mono h e
    rw [languages, languages, List.prod_cons, List.prod_cons, List.sum_cons, List.sum_cons]
    exact ⟨mul_le_mul' he hprod, add_le_add he hsum⟩

end

end Expression

/-- The words of all expressions of a name. -/
def derived (produces : String → Expression → Prop) :
    (String → Language Codepoint) →o (String → Language Codepoint) where
  toFun ρ name := {w | ∃ e, produces name e ∧ w ∈ e.language ρ}
  monotone' _ _ h _ _ := fun ⟨e, he, hw⟩ ↦ ⟨e, he, e.language_mono h hw⟩

/-- The least languages that hold the words of the expressions of their names. -/
def generated (produces : String → Expression → Prop) : String → Language Codepoint :=
  (derived produces).lfp

variable {produces : String → Expression → Prop} {ρ : String → Language Codepoint} {name : String}

theorem generated_le (h : ∀ name e, produces name e → e.language ρ ≤ ρ name) :
    generated produces ≤ ρ := by
  refine OrderHom.lfp_le _ fun name w hw ↦ ?_
  obtain ⟨e, he, hw⟩ := hw
  exact h name e he hw

theorem language_le_generated {e : Expression} (h : produces name e) :
    e.language (generated produces) ≤ generated produces name := by
  intro w hw
  have hmap := congrFun (OrderHom.map_lfp (derived produces)) name
  rw [generated, ← hmap]
  exact ⟨e, h, hw⟩

theorem generated_eq {e : Expression} (h : ∀ e', produces name e' ↔ e' = e) :
    generated produces name = e.language (generated produces) := by
  refine le_antisymm (fun w hw ↦ ?_) (language_le_generated ((h e).2 rfl))
  have hmap := congrFun (OrderHom.map_lfp (derived produces)) name
  rw [generated, ← hmap] at hw
  obtain ⟨e', he', hw⟩ := hw
  rw [(h e').1 he'] at hw
  exact hw

end AbnfCompiler
