import Mathlib.Data.List.Forall2
import Mathlib.Data.Nat.Digits.Lemmas
import AbnfCompiler.Proofs.Text.Blank
import AbnfCompiler.Text.Hex
import AbnfCompiler.Text.Numeral

/-!
Numerals of ABNF: digits of a base, in either case. They are read as the numbers they stand for.
-/
namespace AbnfCompiler.Text

/-- `c` is the digit `d` of a base. -/
def DigitOf (base : ℕ) (c : Char) (d : ℕ) : Prop :=
  d < base ∧ (c = d.digitChar ∨ c = d.digitChar.toUpper)

/-- `cs` is a numeral of `n` in a base, with any number of leading zeros. -/
def NumeralOf (base : ℕ) (cs : List Char) (n : ℕ) : Prop :=
  cs ≠ [] ∧ ∃ ds, List.Forall₂ (DigitOf base) cs ds ∧ n = Nat.ofDigits base ds.reverse

variable {base n : ℕ} {cs : List Char}

theorem DigitOf.elim {c : Char} {d : ℕ} {p : Char → Prop} (h : DigitOf base c d)
    (hp : ∀ d < base, p d.digitChar ∧ p d.digitChar.toUpper) : p c := by
  obtain ⟨hd, rfl | rfl⟩ := h
  · exact (hp d hd).1
  · exact (hp d hd).2

theorem NumeralOf.forall_mem {p : Char → Prop} (h : NumeralOf base cs n)
    (hp : ∀ d < base, p d.digitChar ∧ p d.digitChar.toUpper) : ∀ c ∈ cs, p c := by
  obtain ⟨-, ds, hds, -⟩ := h
  induction hds with
  | nil => simp
  | cons hd hds ih =>
    rw [List.forall_mem_cons]
    exact ⟨hd.elim hp, ih⟩

theorem NumeralOf.lt_pow_length (h : NumeralOf base cs n) (hbase : 1 < base) :
    n < base ^ cs.length := by
  obtain ⟨-, ds, hds, rfl⟩ := h
  rw [hds.length_eq, ← List.length_reverse]
  refine Nat.ofDigits_lt_base_pow_length hbase fun d hd ↦ ?_
  rw [List.mem_reverse] at hd
  induction hds with
  | nil => cases hd
  | cons hc _ ih => exact (List.mem_cons.1 hd).elim (fun heq ↦ heq ▸ hc.1) ih

theorem ofDigits_eq_ofDigits_reverse (base : ℕ) (ds : List ℕ) :
    ofDigits base ds = Nat.ofDigits base ds.reverse := by
  induction ds using List.reverseRecOn with
  | nil => rfl
  | append_singleton ds d ih =>
    rw [ofDigits, List.foldl_append, ← ofDigits, ih, List.reverse_append]
    simp [Nat.ofDigits_cons]
    ring

theorem exists_forall₂ {α β : Type} {R : α → β → Prop} {xs : List α}
    (h : ∀ x ∈ xs, ∃ y, R x y) : ∃ ys, List.Forall₂ R xs ys := by
  induction xs with
  | nil => exact ⟨[], .nil⟩
  | cons x xs ih =>
    obtain ⟨⟨y, hy⟩, hrest⟩ := List.forall_mem_cons.1 h
    obtain ⟨ys, hys⟩ := ih hrest
    exact ⟨y :: ys, .cons hy hys⟩

theorem mapM_of_forall₂ {f : Char → Option ℕ} {ds : List ℕ}
    (h : List.Forall₂ (fun c d ↦ f c = some d) cs ds) : cs.mapM f = some ds := by
  induction h with
  | nil => rfl
  | cons hd _ ih => simp [List.mapM_cons, hd, ih]

theorem NumeralOf.mapM {f : Char → Option ℕ} (h : NumeralOf base cs n)
    (hf : ∀ d < base, f d.digitChar = some d ∧ f d.digitChar.toUpper = some d) :
    (cs.mapM f).map (ofDigits base) = some n := by
  obtain ⟨-, ds, hds, rfl⟩ := h
  have hmap : List.Forall₂ (fun c d ↦ f c = some d) cs ds := by
    refine hds.imp fun c d hc ↦ ?_
    obtain ⟨hd, rfl | rfl⟩ := hc
    · exact (hf d hd).1
    · exact (hf d hd).2
  rw [mapM_of_forall₂ hmap, Option.map_some, ofDigits_eq_ofDigits_reverse]

theorem decimal?_of_numeralOf (h : NumeralOf 10 cs n) : decimal? cs = some n := by
  have hne : cs.isEmpty = false := by simpa using h.1
  rw [decimal?, hne]
  exact h.mapM (by decide)

theorem hexRun?_eq_mapM (hne : cs ≠ []) (h : ∀ c ∈ cs, c ≠ '_') :
    hexRun? cs = cs.mapM hexDigit? := by
  induction cs with
  | nil => exact absurd rfl hne
  | cons c cs ih =>
    cases cs with
    | nil => cases hc : hexDigit? c <;> simp [hexRun?, hc]
    | cons c' cs =>
      have hc' : c' ≠ '_' := h c' (by simp)
      rw [hexRun?]
      · rw [List.mapM_cons, ih (by simp) fun x hx ↦ h x (by simp [hx])]
      · simp
      · intro cs' hcs'
        exact hc' (List.cons.inj hcs').1

theorem hexMagnitude?_eq_hexRun? (h : ∀ c ∈ cs, c ≠ 'x' ∧ c ≠ 'X') :
    hexMagnitude? cs = (hexRun? cs).map (ofDigits 16) := by
  unfold hexMagnitude?
  split
  · next x cs => rw [if_neg (by simpa using h x (by simp))]
  · next x cs _ => rw [if_neg (by simpa using h x (by simp))]
  · rfl

theorem hexadecimal?_of_numeralOf (h : NumeralOf 16 cs n) : hexadecimal? cs = some (n : ℤ) := by
  have hblank := h.forall_mem (p := fun c ↦ isNumeralBlank c = false) (by decide)
  have hplain := h.forall_mem (p := fun c ↦ c ≠ '-' ∧ c ≠ '+') (by decide)
  have hunder := h.forall_mem (p := fun c ↦ c ≠ '_') (by decide)
  have hmark := h.forall_mem (p := fun c ↦ c ≠ 'x' ∧ c ≠ 'X') (by decide)
  have hvalue := h.mapM (f := hexDigit?) (by decide)
  have hmagnitude : hexMagnitude? cs = some n := by
    rw [hexMagnitude?_eq_hexRun? hmark, hexRun?_eq_mapM h.1 hunder]
    exact hvalue
  unfold hexadecimal?
  rw [trimBoth_eq_self (fun c hc ↦ hblank c (List.mem_of_mem_head? hc))
    fun c hc ↦ hblank c (List.mem_of_mem_getLast? hc)]
  split
  · exact absurd rfl (hplain '-' (by simp)).1
  · exact absurd rfl (hplain '+' (by simp)).2
  · rw [hmagnitude]
    rfl

section Writing

theorem NumeralOf.zeros (h : NumeralOf 16 cs n) (k : ℕ) :
    NumeralOf 16 (List.replicate k '0' ++ cs) n := by
  obtain ⟨hne, ds, hds, rfl⟩ := h
  have hzeros : List.Forall₂ (DigitOf 16) (List.replicate k '0') (List.replicate k 0) := by
    induction k with
    | zero => exact .nil
    | succ k ih => exact .cons ⟨by decide, Or.inl rfl⟩ ih
  refine ⟨by simp [hne], _, List.rel_append hzeros hds, ?_⟩
  rw [List.reverse_append, List.reverse_replicate, Nat.ofDigits_append_replicate_zero]

theorem NumeralOf.map_toUpper (h : NumeralOf 16 cs n) : NumeralOf 16 (cs.map Char.toUpper) n := by
  obtain ⟨hne, ds, hds, rfl⟩ := h
  have hupper : ∀ d < 16, d.digitChar.toUpper.toUpper = d.digitChar.toUpper := by decide
  refine ⟨by simpa using hne, ds, List.forall₂_map_left_iff.2 (hds.imp fun c d hd ↦ ?_), rfl⟩
  refine ⟨hd.1, Or.inr ?_⟩
  obtain ⟨hlt, rfl | rfl⟩ := hd
  · rfl
  · exact hupper d hlt

theorem numeralOf_toDigits (n : ℕ) : NumeralOf 16 (Nat.toDigits 16 n) n := by
  induction n using Nat.strongRecOn with
  | _ n ih =>
    rw [Nat.toDigits_eq_if (by decide)]
    split
    · next h => exact ⟨by simp, [n], .cons ⟨h, Or.inl rfl⟩ .nil, by simp⟩
    · next h =>
      obtain ⟨-, ds, hds, hn⟩ := ih (n / 16) (by omega)
      refine ⟨by simp, ds ++ [n % 16], List.rel_append hds
        (.cons ⟨Nat.mod_lt n (by decide), Or.inl rfl⟩ .nil), ?_⟩
      rw [List.reverse_append, List.reverse_singleton, List.singleton_append, Nat.ofDigits_cons,
        ← hn]
      exact (Nat.mod_add_div n 16).symm

theorem numeralOf_hexDigits (width n : ℕ) : NumeralOf 16 (hexDigits width n) n :=
  (numeralOf_toDigits n).zeros _

theorem numeralOf_capitalHexDigits (width n : ℕ) : NumeralOf 16 (capitalHexDigits width n) n :=
  (numeralOf_hexDigits width n).map_toUpper

theorem length_hexDigits {width n : ℕ} (hwidth : 0 < width) (h : n < 16 ^ width) :
    (hexDigits width n).length = width := by
  have hlength := (Nat.length_toDigits_le_iff (by decide) hwidth).2 h
  rw [hexDigits, List.length_append, List.length_replicate]
  omega

end Writing

end AbnfCompiler.Text
