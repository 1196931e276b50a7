import AbnfCompiler.Text.Case

/-!
Characters without letter case: no other character is the same letter as one of them.
-/
namespace AbnfCompiler.Text

/-- A code point that is neither a capital, nor the small form of one, nor kin of another. -/
structure IsCaseless (m : Nat) : Prop where
  pos : 0 < m
  runs : ∀ run ∈ capitalRuns, (m < run.1 ∨ run.2.1 < m) ∧
    ((run.2.1 : Int) + run.2.2.2 < m ∨ (m : Int) < run.1 + run.2.2.2)
  kin : ∀ row ∈ kinTable, row.1 ≠ m ∧ m ∉ row.2

theorem isCaseless_backtick : IsCaseless 0x60 :=
  ⟨by decide, by decide +kernel, by decide +kernel⟩

theorem isCaseless_lineFeed : IsCaseless 0x0A :=
  ⟨by decide, by decide +kernel, by decide +kernel⟩

namespace IsCaseless

variable {m n : Nat} {c x : Char}

theorem small_eq_iff (h : IsCaseless m) : small n = m ↔ n = m := by
  constructor
  · intro hn
    unfold small at hn
    split at hn
    · next hrun =>
      have hin := List.find?_some hrun
      have hout := (h.runs _ (List.mem_of_find?_eq_some hrun)).2
      have hpos := h.pos
      simp only [Bool.and_eq_true, decide_eq_true_eq] at hin hout
      omega
    · exact hn
  · rintro rfl
    unfold small
    split
    · next hrun =>
      have hin := List.find?_some hrun
      have hout := (h.runs _ (List.mem_of_find?_eq_some hrun)).1
      simp only [Bool.and_eq_true, decide_eq_true_eq] at hin hout
      omega
    · rfl

theorem kin_eq_nil (h : IsCaseless m) : Text.kin m = [] := by
  have hnone : kinTable.find? (·.1 == m) = none := by
    rw [List.find?_eq_none]
    intro row hrow
    rw [beq_iff_eq]
    exact (h.kin row hrow).1
  rw [Text.kin, hnone]
  rfl

theorem not_mem_kin (h : IsCaseless m) : m ∉ Text.kin n := by
  intro hm
  unfold Text.kin at hm
  cases hrow : kinTable.find? (·.1 == n) with
  | none =>
    rw [hrow] at hm
    cases hm
  | some row =>
    rw [hrow] at hm
    exact (h.kin row (List.mem_of_find?_eq_some hrow)).2 hm

theorem not_mem_capitals (h : IsCaseless m) : m ∉ capitals n := by
  intro hm
  obtain ⟨⟨first, last, step, offset⟩, hrun, hsome⟩ := List.mem_filterMap.1 hm
  have hout : m < first ∨ last < m := (h.runs _ hrun).1
  simp only at hsome
  split at hsome
  · next hin =>
    obtain ⟨hfirst, hlast, -⟩ := hin
    rw [Option.some.inj hsome] at hfirst hlast
    omega
  · cases hsome

theorem sameLetter_iff (h : IsCaseless c.toNat) : sameLetter c x ↔ x = c := by
  rw [sameLetter, h.small_eq_iff.2 rfl, h.kin_eq_nil, List.contains_nil, Bool.or_false, beq_iff_eq,
    eq_comm, h.small_eq_iff, Char.toNat_inj]

theorem eq_of_sameLetter (h : IsCaseless c.toNat) (hx : sameLetter x c) : x = c := by
  rw [sameLetter, h.small_eq_iff.2 rfl, Bool.or_eq_true, beq_iff_eq, List.contains_iff_mem] at hx
  exact Char.toNat_inj.1 (h.small_eq_iff.1 (hx.resolve_right h.not_mem_kin))

theorem mem_caseForms (h : IsCaseless m) : m ∈ caseForms c ↔ c.toNat = m := by
  rw [caseForms, List.mem_flatMap]
  constructor
  · rintro ⟨n, hn, hm⟩
    rcases List.mem_cons.1 hm with rfl | hm
    · rcases List.mem_cons.1 hn with hsmall | hkin
      · exact h.small_eq_iff.1 hsmall.symm
      · exact absurd hkin h.not_mem_kin
    · exact absurd hm h.not_mem_capitals
  · rintro rfl
    exact ⟨_, List.mem_cons_self, by rw [h.small_eq_iff.2 rfl]; exact List.mem_cons_self⟩

end IsCaseless

theorem sameLetter_self (c : Char) : sameLetter c c := by
  rw [sameLetter, beq_self_eq_true, Bool.true_or]

end AbnfCompiler.Text
