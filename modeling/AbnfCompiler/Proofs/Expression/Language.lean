import Mathlib.Algebra.BigOperators.Group.List.Basic
import Mathlib.Algebra.Order.Monoid.Unbundled.Pow
import Mathlib.Computability.Language
import Mathlib.Order.CompletePartialOrder
import AbnfCompiler.Expression.Basic

/-!
The language of an expression, given the languages of the rules that it names. Repetitions that
are spelled out with sequences, options and native repetitions keep their language, whatever the
language of the element, the empty word included.
-/
namespace AbnfCompiler

open scoped Computability

/-- The words that consist of at least `least` words of a language, and of at most `most` if that
is given. -/
def occurring (least : ℕ) (most : Option ℕ) (L : Language Codepoint) : Language Codepoint :=
  {w | ∃ k, least ≤ k ∧ (∀ m ∈ most, k ≤ m) ∧ w ∈ L ^ k}

/-- The single code points from `low` to `high`. -/
def codesBetween (low high : ℕ) : Language Codepoint :=
  {w | ∃ c : Codepoint, low ≤ c.val ∧ c.val ≤ high ∧ w = [c]}

theorem mem_occurring {least : ℕ} {most : Option ℕ} {L : Language Codepoint}
    {w : List Codepoint} :
    w ∈ occurring least most L ↔ ∃ k, least ≤ k ∧ (∀ m ∈ most, k ≤ m) ∧ w ∈ L ^ k := Iff.rfl

theorem occurring_mono {least : ℕ} {most : Option ℕ} {L M : Language Codepoint} (h : L ≤ M) :
    occurring least most L ≤ occurring least most M := by
  rintro w ⟨k, hk, hm, hw⟩
  exact ⟨k, hk, hm, pow_le_pow_left' h k hw⟩

theorem pow_mul_occurring (n least : ℕ) (most : Option ℕ) (L : Language Codepoint) :
    L ^ n * occurring least most L = occurring (n + least) (most.map (n + ·)) L := by
  ext w
  rw [Language.mem_mul]
  constructor
  · rintro ⟨a, ha, b, ⟨k, hk, hm, hb⟩, rfl⟩
    refine ⟨n + k, by omega, ?_, ?_⟩
    · intro m hmem
      obtain ⟨m', hm', rfl⟩ := Option.mem_map.1 hmem
      exact Nat.add_le_add_left (hm m' hm') n
    · rw [pow_add]
      exact Language.append_mem_mul ha hb
  · rintro ⟨k, hk, hm, hw⟩
    obtain ⟨j, rfl⟩ := Nat.exists_eq_add_of_le (show n ≤ k by omega)
    rw [pow_add] at hw
    obtain ⟨a, ha, b, hb, rfl⟩ := Language.mem_mul.1 hw
    refine ⟨a, ha, b, ⟨j, by omega, ?_, hb⟩, rfl⟩
    intro m hmem
    have := hm (n + m) (Option.mem_map_of_mem _ hmem)
    omega

theorem one_add_pow (d : ℕ) (L : Language Codepoint) :
    (1 + L) ^ d = occurring 0 (some d) L := by
  induction d with
  | zero =>
    ext w
    rw [pow_zero, mem_occurring]
    constructor
    · intro hw
      exact ⟨0, le_rfl, by simp, by simpa using hw⟩
    · rintro ⟨k, -, hk, hw⟩
      have : k = 0 := by simpa using hk
      subst this
      simpa using hw
  | succ d ih =>
    ext w
    have hstep := pow_mul_occurring 1 0 (some d) L
    rw [pow_one] at hstep
    rw [pow_succ', add_mul, one_mul, ih, Language.mem_add, hstep]
    simp only [mem_occurring, Option.map_some, Option.mem_def, Option.some.injEq, forall_eq',
      Nat.zero_le, true_and]
    constructor
    · rintro (⟨k, hk, hw⟩ | ⟨k, -, hk, hw⟩)
      · exact ⟨k, by omega, hw⟩
      · exact ⟨k, by omega, hw⟩
    · rintro ⟨k, hk, hw⟩
      cases k with
      | zero => exact Or.inl ⟨0, Nat.zero_le d, hw⟩
      | succ k => exact Or.inr ⟨k + 1, by omega, by omega, hw⟩

namespace Expression

variable (ρ : String → Language Codepoint)

mutual

/-- The language of an expression, where names have the languages `ρ`. -/
def language : Expression → Language Codepoint
  | .reference name => ρ name
  | .literal value => {value}
  | .charClass range => codesBetween range.low range.high
  | .sequence items => (languages items).prod
  | .choice items => (languages items).sum
  | .repetition element bounds => occurring bounds.least bounds.most (language element)
  | .optional element => 1 + language element

def languages : List Expression → List (Language Codepoint)
  | [] => []
  | e :: es => language e :: languages es

end

theorem languages_eq_map (es : List Expression) : languages ρ es = es.map (language ρ) := by
  induction es with
  | nil => rfl
  | cons e es ih => rw [languages, ih, List.map_cons]

variable {ρ}

theorem language_sequenceOf {es : List Expression} {e : Expression} (h : sequenceOf es = some e) :
    e.language ρ = (es.map (language ρ)).prod := by
  match es, h with
  | [e'], h =>
    cases h
    simp
  | e₁ :: e₂ :: es, h =>
    cases h
    rw [language, languages_eq_map]

theorem language_choiceOf {es : List Expression} {e : Expression} (h : choiceOf es = some e) :
    e.language ρ = (es.map (language ρ)).sum := by
  match es, h with
  | [e'], h =>
    cases h
    simp
  | e₁ :: e₂ :: es, h =>
    cases h
    rw [language, languages_eq_map]

/-- Everything that a repetition can be spelled out as. -/
theorem repeated_cases {lower : ℤ} {upper : Option ℤ} {e e' : Expression}
    (h : repeated lower upper e = .ok e') :
    (upper = none ∧ lower ≤ 1 ∧ e' = .repetition e (.atLeast lower.toNat)) ∨
      (upper = none ∧ 1 < lower ∧
        e' = .sequence (List.replicate lower.toNat e ++ [.repetition e (.atLeast 0)])) ∨
      ∃ n, upper = some n ∧ lower.toNat + (n - lower).toNat = n.toNat ∧
        sequenceOf (List.replicate lower.toNat e ++
          List.replicate (n - lower).toNat (.optional e)) = some e' := by
  unfold repeated at h
  split at h
  · cases h
  · split at h
    · split at h
      · next hlower =>
        cases h
        exact Or.inl ⟨rfl, hlower, rfl⟩
      · next hlower =>
        cases h
        exact Or.inr (Or.inl ⟨rfl, by omega, rfl⟩)
    · next n =>
      split at h
      · cases h
      · split at h
        · next spelled hspelled =>
          cases h
          exact Or.inr (Or.inr ⟨n, rfl, by omega, hspelled⟩)
        · cases h

/-- A repetition that is spelled out has the words that the bounds ask for. -/
theorem language_repeated {lower : ℤ} {upper : Option ℤ} {e e' : Expression}
    (h : repeated lower upper e = .ok e') :
    e'.language ρ = occurring lower.toNat (upper.map Int.toNat) (e.language ρ) := by
  rcases repeated_cases h with ⟨rfl, -, rfl⟩ | ⟨rfl, -, rfl⟩ | ⟨n, rfl, hsum, hspelled⟩
  · rw [language]
    rfl
  · rw [language, languages_eq_map, List.map_append, List.map_replicate, List.prod_append,
      List.prod_replicate, List.map_singleton, List.prod_singleton, language]
    simp [Bounds.atLeast, pow_mul_occurring]
  · rw [language_sequenceOf hspelled, List.map_append, List.map_replicate, List.map_replicate,
      List.prod_append, List.prod_replicate, List.prod_replicate, language, one_add_pow,
      pow_mul_occurring]
    simp only [Nat.add_zero, Option.map_some, hsum]

end Expression

end AbnfCompiler
