import AbnfCompiler.Grammar.Rendering
import AbnfCompiler.Proofs.Expression.SpelledOut

/-!
Repetitions spelled out. There is an expression exactly for bounds that allow an occurrence, and it
has the words that the bounds ask for. A grammar writes a repetition down as this expression.
-/
namespace AbnfCompiler.Expression

/-- Made of copies of an element with sequences, options and native repetitions only. -/
inductive BuiltFrom (e : Expression) : Expression → Prop
  | element : BuiltFrom e e
  | optional : BuiltFrom e (.optional e)
  | native {n : ℕ} : n ≤ 1 → BuiltFrom e (.repetition e (.atLeast n))
  | sequence {es : List Expression} : (∀ x ∈ es, BuiltFrom e x) → BuiltFrom e (.sequence es)

variable {e e' x : Expression} {lower : ℤ} {upper : Option ℤ}

theorem builtFrom_repeated (h : repeated lower upper e = .ok e') : BuiltFrom e e' :=
  repeated_induction h .element .optional (fun _ ↦ .native) fun _ ↦ .sequence

section Failure

theorem copies_eq_nil {least more : ℕ} :
    List.replicate least e ++ List.replicate more (.optional e) = [] ↔ least = 0 ∧ more = 0 := by
  rw [List.append_eq_nil_iff, List.replicate_eq_nil_iff, List.replicate_eq_nil_iff]

/-- Only bounds that are negative, inverted or rule out every occurrence are refused. -/
theorem repeated_eq_error_iff :
    (∃ error, repeated lower upper e = .error error) ↔
      lower < 0 ∨ (∃ n, upper = some n ∧ n < lower) ∨ (lower = 0 ∧ upper = some 0) := by
  unfold repeated
  split
  · next hlower => exact iff_of_true ⟨_, rfl⟩ (Or.inl hlower)
  · next hlower =>
    split
    · refine iff_of_false ?_ (by simpa using hlower)
      split <;> exact nofun
    · next n =>
      split
      · next hn => exact iff_of_true ⟨_, rfl⟩ (Or.inr (Or.inl ⟨n, rfl, hn⟩))
      · next hn =>
        -- What is left to refuse is a row without any copy.
        have hbounds : (lower < 0 ∨ (∃ m, some n = some m ∧ m < lower) ∨
            (lower = 0 ∧ some n = some 0)) ↔ lower.toNat = 0 ∧ (n - lower).toNat = 0 := by
          simp only [Option.some.injEq, exists_eq_left']
          omega
        rw [hbounds, ← copies_eq_nil (e := e), ← sequenceOf_eq_none]
        split
        · next hspelled =>
          rw [hspelled]
          exact iff_of_false nofun nofun
        · next hspelled => exact iff_of_true ⟨_, rfl⟩ hspelled

end Failure

section Rendering

theorem spelledOutAll_append (es fs : List Expression) :
    spelledOutAll (es ++ fs) = do return (← spelledOutAll es) ++ (← spelledOutAll fs) := by
  induction es with
  | nil =>
    rw [List.nil_append, spelledOutAll, except_ok_bind]
    exact (bind_pure _).symm
  | cons e es ih =>
    rw [List.cons_append, spelledOutAll, spelledOutAll, ih]
    simp

theorem spelledOutAll_replicate (n : ℕ) (h : e.spelledOut = .ok x) :
    spelledOutAll (List.replicate n e) = .ok (List.replicate n x) := by
  induction n with
  | zero => rfl
  | succ n ih =>
    rw [List.replicate_succ, List.replicate_succ, spelledOutAll, h, ih]
    rfl

theorem spelledOutAll_of_error {es : List Expression} {error : BoundsError} (hne : es ≠ [])
    (h : ∀ y ∈ es, y.spelledOut = .error error) : spelledOutAll es = .error error := by
  obtain ⟨y, ys, rfl⟩ := List.exists_cons_of_ne_nil hne
  rw [spelledOutAll, h y List.mem_cons_self]
  rfl

theorem spelledOut_sequence_of_error {es : List Expression} {error : BoundsError} (hne : es ≠ [])
    (h : ∀ y ∈ es, y.spelledOut = .error error) : (sequence es).spelledOut = .error error := by
  rw [spelledOut, spelledOutAll_of_error hne h]
  rfl

theorem spelledOut_sequenceOf_of_error {es : List Expression} {error : BoundsError}
    (hspelled : sequenceOf es = some e) (h : ∀ y ∈ es, y.spelledOut = .error error) :
    e.spelledOut = .error error := by
  match es, hspelled with
  | [_], hspelled =>
    cases hspelled
    exact h _ (List.mem_singleton_self _)
  | _ :: _ :: _, hspelled =>
    cases hspelled
    exact spelledOut_sequence_of_error (List.cons_ne_nil _ _) h

theorem spelledOut_sequenceOf_of_ok {es xs : List Expression} (hspelled : sequenceOf es = some e)
    (h : spelledOutAll es = .ok xs) : ∃ x, sequenceOf xs = some x ∧ e.spelledOut = .ok x := by
  match es, hspelled with
  | [y], hspelled =>
    cases hspelled
    obtain ⟨x, hx, hxs⟩ := except_bind_eq_ok.1 h
    cases hxs
    exact ⟨x, rfl, hx⟩
  | y :: z :: es, hspelled =>
    cases hspelled
    have hlist : (sequence (y :: z :: es)).spelledOut = .ok (.sequence xs) := by
      rw [spelledOut, h]
      rfl
    obtain ⟨x₁, -, h⟩ := except_bind_eq_ok.1 h
    obtain ⟨_, hrest, h⟩ := except_bind_eq_ok.1 h
    obtain ⟨x₂, -, hrest⟩ := except_bind_eq_ok.1 hrest
    obtain ⟨xs, -, hrest⟩ := except_bind_eq_ok.1 hrest
    cases hrest
    cases h
    exact ⟨_, rfl, hlist⟩

theorem spelledOut_atLeast {n : ℕ} (hn : n ≤ 1) :
    (repetition e (.atLeast n)).spelledOut
      = do return .repetition (← e.spelledOut) (.atLeast n) := by
  have hnative : (Bounds.atLeast n).isNative := decide_eq_true hn
  rw [spelledOut]
  simp only [hnative, if_true]

theorem spelledOut_repeated_of_error {error : BoundsError} (h : repeated lower upper e = .ok e')
    (he : e.spelledOut = .error error) : e'.spelledOut = .error error := by
  have hnative : ∀ n ≤ 1, (repetition e (.atLeast n)).spelledOut = .error error := by
    intro n hn
    rw [spelledOut_atLeast hn, he]
    rfl
  have hoptional : (optional e).spelledOut = .error error := by
    rw [spelledOut, he]
    rfl
  have hcopies {y : Expression} (hy : y.spelledOut = .error error) (n : ℕ) :
      ∀ z ∈ List.replicate n y, z.spelledOut = .error error := by
    intro z hz
    rwa [List.eq_of_mem_replicate hz]
  rcases repeated_cases h with ⟨-, hlower, rfl⟩ | ⟨-, hlower, rfl⟩ | ⟨n, -, -, hspelled⟩
  · exact hnative _ (by omega)
  · exact spelledOut_sequence_of_error (by simp) (List.forall_mem_append.2
      ⟨hcopies he _, List.forall_mem_singleton.2 (hnative 0 (Nat.zero_le 1))⟩)
  · exact spelledOut_sequenceOf_of_error hspelled
      (List.forall_mem_append.2 ⟨hcopies he _, hcopies hoptional _⟩)

theorem spelledOut_repeated_of_ok (h : repeated lower upper e = .ok e')
    (he : e.spelledOut = .ok x) : e'.spelledOut = repeated lower upper x := by
  unfold repeated at h ⊢
  split at h
  · cases h
  · next hlower =>
    rw [if_neg hlower]
    split at h
    · split at h
      · next hone =>
        cases h
        rw [spelledOut_atLeast (by omega), he]
        simp only [hone, if_true]
        rfl
      · next hone =>
        cases h
        rw [spelledOut, spelledOutAll_append, spelledOutAll_replicate _ he, spelledOutAll,
          spelledOut_atLeast (Nat.zero_le 1), he]
        simp only [hone, if_false]
        rfl
    · next n =>
      split at h
      · cases h
      · next hn =>
        split at h
        · next hspelled =>
          cases h
          have hoptional : (optional e).spelledOut = .ok (.optional x) := by
            rw [spelledOut, he]
            rfl
          have hitems : spelledOutAll (List.replicate lower.toNat e
                ++ List.replicate (n - lower).toNat (optional e))
              = .ok (List.replicate lower.toNat x
                ++ List.replicate (n - lower).toNat (.optional x)) := by
            rw [spelledOutAll_append, spelledOutAll_replicate _ he,
              spelledOutAll_replicate _ hoptional]
            rfl
          obtain ⟨y, hy, he'⟩ := spelledOut_sequenceOf_of_ok hspelled hitems
          simp only [hn, if_false, hy, he']
        · cases h

/-- It does not matter whether a repetition or its element is spelled out first. -/
theorem spelledOut_repeated (h : repeated lower upper e = .ok e') :
    e'.spelledOut = e.spelledOut >>= repeated lower upper := by
  cases he : e.spelledOut with
  | error error => exact spelledOut_repeated_of_error h he
  | ok x => exact spelledOut_repeated_of_ok h he

theorem repeated_atLeast {n : ℕ} (hn : n ≤ 1) (x : Expression) :
    repeated n none x = .ok (.repetition x (.atLeast n)) := by
  unfold repeated
  rw [if_neg (by omega)]
  simp only
  rw [if_pos (by omega), Int.toNat_natCast]

theorem spelledOut_repetition (e : Expression) (b : Bounds) :
    (repetition e b).spelledOut
      = e.spelledOut >>= repeated b.least (b.most.map Int.ofNat) := by
  rw [spelledOut]
  refine bind_congr fun x ↦ ?_
  split
  · next hnative =>
    obtain ⟨hmost, hleast⟩ := Bool.and_eq_true_iff.1 hnative
    obtain ⟨least, most, hordered⟩ := b
    obtain rfl : most = none := Option.isNone_iff_eq_none.1 hmost
    exact (repeated_atLeast (of_decide_eq_true hleast) x).symm
  · rfl

/-- A repetition is written down as the expression that it is spelled out as. -/
theorem expressionText_repetition (g : Grammar) (e : Expression) {b : Bounds}
    (h : b.most ≠ some 0) :
    g.expressionText (.repetition e b)
      = repeated b.least (b.most.map Int.ofNat) e >>= g.expressionText := by
  obtain ⟨e', he'⟩ := exists_repeated h e
  rw [he', except_ok_bind, Grammar.expressionText, Grammar.expressionText, spelledOut_repetition,
    spelledOut_repeated he']

end Rendering

theorem mem_language_repeated {ρ : String → Language Codepoint}
    (h : repeated lower upper e = .ok e') (w : List Codepoint) :
    w ∈ e'.language ρ ↔
      ∃ k : ℕ, lower ≤ k ∧ (∀ n, upper = some n → k ≤ n) ∧ w ∈ e.language ρ ^ k := by
  have hbounds : ¬ (lower < 0 ∨ (∃ n, upper = some n ∧ n < lower) ∨
      (lower = 0 ∧ upper = some 0)) := by
    rw [← repeated_eq_error_iff (e := e), h]
    nofun
  rw [language_repeated h, mem_occurring]
  refine exists_congr fun k ↦ and_congr Int.toNat_le (and_congr_left' ?_)
  cases upper with
  | none => simp
  | some n =>
    simp only [Option.some.injEq, exists_eq_left', Option.map_some, Option.mem_def,
      forall_eq'] at hbounds ⊢
    omega

/-- Bounds are refused exactly if they are negative, inverted or rule out every occurrence. Else
the repetition is spelled out with native parts as all numbers of occurrences between its bounds,
and a grammar writes it down in this way. -/
theorem repetition_exact (e : Expression) (lower : ℤ) (upper : Option ℤ) :
    ((∃ error, repeated lower upper e = .error error) ↔
      lower < 0 ∨ (∃ n, upper = some n ∧ n < lower) ∨ (lower = 0 ∧ upper = some 0)) ∧
    (∀ e', repeated lower upper e = .ok e' →
      BuiltFrom e e' ∧ ∀ (ρ : String → Language Codepoint) (w : List Codepoint),
        w ∈ e'.language ρ ↔
          ∃ k : ℕ, lower ≤ k ∧ (∀ n, upper = some n → k ≤ n) ∧ w ∈ e.language ρ ^ k) ∧
    ∀ (g : Grammar) (b : Bounds), b.most ≠ some 0 →
      g.expressionText (.repetition e b)
        = repeated b.least (b.most.map Int.ofNat) e >>= g.expressionText := by
  refine ⟨repeated_eq_error_iff, fun e' h ↦ ⟨builtFrom_repeated h, fun ρ w ↦ ?_⟩, ?_⟩
  · exact mem_language_repeated h w
  · exact fun g b ↦ expressionText_repetition g e

example : repeated 1 (some 3) (.reference "a") = .ok (.sequence
    [.reference "a", .optional (.reference "a"), .optional (.reference "a")]) := rfl

end AbnfCompiler.Expression
