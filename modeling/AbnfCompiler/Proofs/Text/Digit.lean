import AbnfCompiler.Proofs.Text.Numeral

/-!
Decimal digits of every script, and the numbers that rows of them stand for. A digit has one value,
since the runs of the scripts lie apart, and no blank is a digit.
-/
namespace AbnfCompiler.Text

/-- `c` is the digit `d` in the run of some script. -/
def DigitValue (c : Char) (d : ℕ) : Prop := d < 10 ∧ ∃ z ∈ zeros, c.toNat = z + d

instance (c : Char) (d : ℕ) : Decidable (DigitValue c d) :=
  inferInstanceAs (Decidable (d < 10 ∧ ∃ z ∈ zeros, c.toNat = z + d))

/-- The digits `cs` stand for `n`, with any number of leading zeros. -/
def DecimalOf (cs : List Char) (n : ℕ) : Prop :=
  cs ≠ [] ∧ ∃ ds, List.Forall₂ DigitValue cs ds ∧ n = Nat.ofDigits 10 ds.reverse

variable {c : Char} {cs : List Char} {d n : ℕ}

theorem apart_of_mem_zeros :
    ∀ z ∈ zeros, ∀ z' ∈ zeros, z = z' ∨ z + 10 ≤ z' ∨ z' + 10 ≤ z := by
  decide +kernel

theorem digit?_eq_some_iff : digit? c = some d ↔ DigitValue c d := by
  rw [digit?, Option.map_eq_some_iff]
  constructor
  · rintro ⟨z, hz, rfl⟩
    have hrun := List.find?_some hz
    rw [Bool.and_eq_true, decide_eq_true_eq, decide_eq_true_eq] at hrun
    exact ⟨by omega, z, List.mem_of_find?_eq_some hz, by omega⟩
  · rintro ⟨hd, z, hz, hc⟩
    have hfound : (zeros.find? fun z ↦ z ≤ c.toNat && c.toNat < z + 10).isSome := by
      rw [List.find?_isSome]
      exact ⟨z, hz, by simp only [Bool.and_eq_true, decide_eq_true_eq]; omega⟩
    obtain ⟨z', hz'⟩ := Option.isSome_iff_exists.1 hfound
    have hrun := List.find?_some hz'
    rw [Bool.and_eq_true, decide_eq_true_eq, decide_eq_true_eq] at hrun
    have hapart := apart_of_mem_zeros z hz z' (List.mem_of_find?_eq_some hz')
    exact ⟨z', hz', by omega⟩

theorem isDigit_iff : isDigit c ↔ ∃ d, DigitValue c d := by
  simp only [isDigit, Option.isSome_iff_exists, digit?_eq_some_iff]

theorem not_isBlank_of_digitValue (h : DigitValue c d) : isBlank c = false := by
  have hapart : ∀ z ∈ zeros, ∀ range ∈ blanks, z + 10 ≤ range.1 ∨ range.2 < z := by
    decide +kernel
  obtain ⟨hd, z, hz, hc⟩ := h
  rw [isBlank, Ranges.covers, List.any_eq_false]
  intro range hrange
  have hz := hapart z hz range hrange
  simp only [Bool.and_eq_true, decide_eq_true_eq]
  omega

theorem mapM_digit?_eq_some_iff {ds : List ℕ} :
    cs.mapM digit? = some ds ↔ List.Forall₂ DigitValue cs ds := by
  constructor
  · intro h
    induction cs generalizing ds with
    | nil =>
      cases h
      exact .nil
    | cons c cs ih =>
      simp only [List.mapM_cons, Option.bind_eq_bind, Option.bind_eq_some_iff] at h
      obtain ⟨d, hd, ds, hds, h⟩ := h
      cases h
      exact .cons (digit?_eq_some_iff.1 hd) (ih hds)
  · intro h
    exact mapM_of_forall₂ (h.imp fun _ _ ↦ digit?_eq_some_iff.2)

theorem decimal?_eq_some_iff : decimal? cs = some n ↔ DecimalOf cs n := by
  unfold decimal? DecimalOf
  cases cs with
  | nil => simp
  | cons c cs =>
    simp only [List.isEmpty_cons, Bool.false_eq_true, ↓reduceIte, Option.map_eq_some_iff,
      mapM_digit?_eq_some_iff, ofDigits_eq_ofDigits_reverse, ne_eq, reduceCtorEq,
      not_false_eq_true, true_and]
    refine exists_congr fun ds ↦ and_congr_right fun _ ↦ ?_
    exact eq_comm

theorem DecimalOf.exists_digitValue (h : DecimalOf cs n) : ∀ c ∈ cs, ∃ d, DigitValue c d := by
  obtain ⟨-, ds, hds, -⟩ := h
  induction hds with
  | nil => exact fun c hc ↦ absurd hc List.not_mem_nil
  | cons hd _ ih => exact List.forall_mem_cons.2 ⟨⟨_, hd⟩, ih⟩

theorem exists_decimalOf (hne : cs ≠ []) (h : ∀ c ∈ cs, isDigit c) : ∃ n, DecimalOf cs n := by
  obtain ⟨ds, hds⟩ := exists_forall₂ fun c hc ↦ isDigit_iff.1 (h c hc)
  exact ⟨_, hne, ds, hds, rfl⟩

end AbnfCompiler.Text
