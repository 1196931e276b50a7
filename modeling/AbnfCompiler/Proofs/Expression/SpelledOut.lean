import AbnfCompiler.Proofs.Expression.Language

/-!
Expressions with their repetitions spelled out. Every expression that can be written down has such
a form: its repetitions are native, it refers to no further names, and its language is the same. It
repeats the names of a repetition with every copy of the element.
-/
namespace AbnfCompiler

@[simp] theorem except_ok_bind {ε α β : Type} (a : α) (f : α → Except ε β) :
    (Except.ok a >>= f) = f a := rfl

theorem except_bind_eq_ok {ε α β : Type} {x : Except ε α} {f : α → Except ε β} {b : β} :
    (x >>= f) = .ok b ↔ ∃ a, x = .ok a ∧ f a = .ok b := by
  cases x with
  | error e => exact ⟨nofun, nofun⟩
  | ok a =>
    constructor
    · intro h
      exact ⟨a, rfl, h⟩
    · rintro ⟨a', ha, h⟩
      cases ha
      exact h

/-- How many copies of its element a repetition is written with. -/
def Bounds.copies (b : Bounds) : Nat := if b.isNative then 1 else b.most.getD (b.least + 1)

namespace Expression

mutual

def isNative : Expression → Bool
  | .reference _ | .literal _ | .charClass _ => true
  | .sequence items | .choice items => allNative items
  | .repetition element bounds => bounds.isNative && isNative element
  | .optional element => isNative element

def allNative : List Expression → Bool
  | [] => true
  | e :: es => isNative e && allNative es

end

mutual

/-- Whether the expression can be written down: no literal holds a surrogate, and no repetition
rules out every occurrence. -/
def isWritable : Expression → Bool
  | .reference _ | .charClass _ => true
  | .literal value => value.all fun c ↦ !c.isSurrogate
  | .sequence items | .choice items => allWritable items
  | .repetition element bounds => bounds.most != some 0 && isWritable element
  | .optional element => isWritable element

def allWritable : List Expression → Bool
  | [] => true
  | e :: es => isWritable e && allWritable es

end

theorem allNative_iff {es : List Expression} : allNative es ↔ ∀ e ∈ es, e.isNative := by
  induction es with
  | nil => simp [allNative]
  | cons e es ih => simp [allNative, ih]

theorem allWritable_iff {es : List Expression} : allWritable es ↔ ∀ e ∈ es, e.isWritable := by
  induction es with
  | nil => simp [allWritable]
  | cons e es ih => simp [allWritable, ih]

/-- What holds of an element, and of sequences, options and native repetitions made from it, holds
of its repetition. -/
theorem repeated_induction {P : Expression → Prop} {lower : ℤ} {upper : Option ℤ}
    {e e' : Expression} (h : repeated lower upper e = .ok e') (he : P e) (ho : P (.optional e))
    (hr : ∀ n ≤ 1, P (.repetition e (.atLeast n)))
    (hs : ∀ es, (∀ x ∈ es, P x) → P (.sequence es)) : P e' := by
  have hall : ∀ {es : List Expression} {x : Expression}, (∀ y ∈ es, P y) →
      sequenceOf es = some x → P x := by
    intro es x hes hx
    match es, hx with
    | [y], hx =>
      cases hx
      exact hes _ (by simp)
    | y :: z :: es, hx =>
      cases hx
      exact hs _ hes
  have hitem : ∀ n, ∀ x ∈ List.replicate n e, P x :=
    fun n x hx ↦ List.eq_of_mem_replicate hx ▸ he
  rcases repeated_cases h with ⟨-, hlower, rfl⟩ | ⟨-, -, rfl⟩ | ⟨n, -, -, hspelled⟩
  · exact hr _ (by omega)
  · exact hs _ (List.forall_mem_append.2
      ⟨hitem _, List.forall_mem_singleton.2 (hr 0 (Nat.zero_le 1))⟩)
  · exact hall (List.forall_mem_append.2
      ⟨hitem _, fun x hx ↦ List.eq_of_mem_replicate hx ▸ ho⟩) hspelled

/-- Bounds that allow an occurrence can be spelled out. -/
theorem exists_repeated {b : Bounds} (h : b.most ≠ some 0) (e : Expression) :
    ∃ e', repeated b.least (b.most.map Int.ofNat) e = .ok e' := by
  unfold repeated
  rw [if_neg (by omega)]
  obtain ⟨least, most, hordered⟩ := b
  cases most with
  | none =>
    simp only [Option.map_none]
    split
    · exact ⟨_, rfl⟩
    · exact ⟨_, rfl⟩
  | some most =>
    have hle : least ≤ most := hordered most rfl
    have hpos : most ≠ 0 := fun hz ↦ h (congrArg some hz)
    simp only [Option.map_some, Int.ofNat_eq_natCast]
    rw [if_neg (by omega)]
    -- There is an item to put into the sequence, since not both bounds are zero.
    have hitems : ∃ x xs, List.replicate (least : ℤ).toNat e ++
        List.replicate ((most : ℤ) - least).toNat (.optional e) = x :: xs := by
      apply List.exists_cons_of_ne_nil
      intro hnil
      have hlength := congrArg List.length hnil
      simp at hlength
      omega
    obtain ⟨x, xs, hxs⟩ := hitems
    rw [hxs]
    cases xs with
    | nil => exact ⟨x, rfl⟩
    | cons y ys => exact ⟨.sequence (x :: y :: ys), rfl⟩

/-- What spelling out keeps, and what it achieves. -/
structure SpelledAs (e e' : Expression) : Prop where
  native : e'.isNative
  writable : e'.isWritable
  references : ∀ n ∈ e'.references, n ∈ e.references
  language : ∀ ρ, e'.language ρ = e.language ρ

theorem SpelledAs.repeated {element e e' : Expression} {b : Bounds} (h : element.SpelledAs e)
    (he : Expression.repeated b.least (b.most.map Int.ofNat) e = .ok e') :
    (Expression.repetition element b).SpelledAs e' where
  native := by
    refine repeated_induction (P := fun x ↦ x.isNative) he h.native h.native (fun n hn ↦ ?_)
      fun es hes ↦ ?_
    · rw [isNative, h.native, Bool.and_true]
      exact decide_eq_true hn
    · rw [isNative]
      exact allNative_iff.2 hes
  writable := by
    refine repeated_induction (P := fun x ↦ x.isWritable) he h.writable h.writable (fun n _ ↦ ?_)
      fun es hes ↦ ?_
    · rw [isWritable, h.writable]
      rfl
    · rw [isWritable]
      exact allWritable_iff.2 hes
  references := by
    refine repeated_induction (P := fun x ↦ ∀ n ∈ x.references, n ∈ element.references) he
      h.references h.references (fun _ _ ↦ h.references) fun es hes n hn ↦ ?_
    rw [Expression.references, referencesAll_eq_flatMap, List.mem_flatMap] at hn
    obtain ⟨x, hx, hn⟩ := hn
    exact hes x hx n hn
  language ρ := by
    rw [language_repeated he, Expression.language, h.language, Option.map_map]
    congr 1
    cases b.most <;> rfl

mutual

theorem exists_spelledOut : ∀ {e : Expression}, e.isWritable →
    ∃ e', e.spelledOut = .ok e' ∧ e.SpelledAs e'
  | .reference name, _ => ⟨_, rfl, rfl, rfl, fun _ h ↦ h, fun _ ↦ rfl⟩
  | .literal value, h => ⟨_, rfl, rfl, h, fun _ h ↦ h, fun _ ↦ rfl⟩
  | .charClass range, _ => ⟨_, rfl, rfl, rfl, fun _ h ↦ h, fun _ ↦ rfl⟩
  | .sequence items, h => by
    obtain ⟨es, hes, hnative, hwritable, href, hlang⟩ :=
      exists_spelledOutAll (show allWritable items from h)
    refine ⟨.sequence es, by rw [spelledOut, hes]; rfl, hnative, hwritable, href, ?_⟩
    intro ρ
    rw [Expression.language, Expression.language, hlang]
  | .choice items, h => by
    obtain ⟨es, hes, hnative, hwritable, href, hlang⟩ :=
      exists_spelledOutAll (show allWritable items from h)
    refine ⟨.choice es, by rw [spelledOut, hes]; rfl, hnative, hwritable, href, ?_⟩
    intro ρ
    rw [Expression.language, Expression.language, hlang]
  | .optional element, h => by
    obtain ⟨e, he, hspelled⟩ := exists_spelledOut (e := element) h
    refine ⟨.optional e, by rw [spelledOut, he]; rfl, hspelled.native,
      hspelled.writable, hspelled.references, ?_⟩
    intro ρ
    rw [Expression.language, Expression.language, hspelled.language]
  | .repetition element bounds, h => by
    rw [isWritable, Bool.and_eq_true, bne_iff_ne] at h
    obtain ⟨hmost, hw⟩ := h
    obtain ⟨e, he, hspelled⟩ := exists_spelledOut hw
    rw [spelledOut, he, except_ok_bind]
    by_cases hb : bounds.isNative
    · refine ⟨.repetition e bounds, by rw [if_pos hb]; rfl, ?_, ?_, hspelled.references, ?_⟩
      · rw [isNative, hb, hspelled.native]; rfl
      · rw [isWritable, hspelled.writable, Bool.and_true, bne_iff_ne]; exact hmost
      · intro ρ
        rw [Expression.language, Expression.language, hspelled.language]
    · obtain ⟨e', he'⟩ := exists_repeated hmost e
      rw [if_neg hb]
      exact ⟨e', he', hspelled.repeated he'⟩

theorem exists_spelledOutAll : ∀ {es : List Expression}, allWritable es →
    ∃ es', spelledOutAll es = .ok es' ∧ allNative es' ∧ allWritable es' ∧
      (∀ n ∈ referencesAll es', n ∈ referencesAll es) ∧ ∀ ρ, languages ρ es' = languages ρ es
  | [], _ => ⟨[], rfl, rfl, rfl, fun _ h ↦ h, fun _ ↦ rfl⟩
  | e :: es, h => by
    rw [allWritable, Bool.and_eq_true] at h
    obtain ⟨e', he, hspelled⟩ := exists_spelledOut h.1
    obtain ⟨es', hes, hnative, hwritable, href, hlang⟩ := exists_spelledOutAll h.2
    refine ⟨e' :: es', by rw [spelledOutAll, he, hes]; rfl, ?_, ?_, ?_, ?_⟩
    · rw [allNative, hspelled.native, hnative]; rfl
    · rw [allWritable, hspelled.writable, hwritable]; rfl
    · intro n hn
      rw [referencesAll, List.mem_append] at hn ⊢
      exact hn.imp (hspelled.references n) (href n)
    · intro ρ
      rw [languages, languages, hspelled.language, hlang]

end

section Occurrences

mutual

/-- The names referred to in order, each as often as it is written: a repetition that has to be
spelled out repeats the names of its element. -/
def occurrences : Expression → List String
  | .reference name => [name]
  | .literal _ | .charClass _ => []
  | .sequence items | .choice items => occurrencesAll items
  | .repetition element bounds => (List.replicate bounds.copies (occurrences element)).flatten
  | .optional element => occurrences element

def occurrencesAll : List Expression → List String
  | [] => []
  | e :: es => occurrences e ++ occurrencesAll es

end

theorem references_sequenceOf {es : List Expression} {e : Expression} (h : sequenceOf es = some e) :
    e.references = es.flatMap references := by
  match es, h with
  | [x], h =>
    cases h
    rw [List.flatMap_singleton]
  | x :: y :: es, h =>
    cases h
    rw [references, referencesAll_eq_flatMap]

theorem references_repeated {b : Bounds} {e e' : Expression}
    (h : repeated b.least (b.most.map Int.ofNat) e = .ok e') :
    0 < b.copies ∧ e'.references = (List.replicate b.copies e.references).flatten := by
  have hitems (n : Nat) (es : List Expression) : (List.replicate n e ++ es).flatMap references
      = (List.replicate n e.references).flatten ++ es.flatMap references := by
    rw [List.flatMap_append, List.flatMap_replicate]
  obtain ⟨least, most, hordered⟩ := b
  rcases repeated_cases h with ⟨hmost, hleast, rfl⟩ | ⟨hmost, hleast, rfl⟩ |
    ⟨n, hmost, hsum, hspelled⟩
  · obtain rfl : most = none := Option.map_eq_none_iff.1 hmost
    have hcopies : Bounds.copies ⟨least, none, hordered⟩ = 1 :=
      if_pos (decide_eq_true (Int.ofNat_le.1 hleast))
    rw [hcopies, references, List.replicate_one, List.flatten_singleton]
    exact ⟨Nat.one_pos, rfl⟩
  · obtain rfl : most = none := Option.map_eq_none_iff.1 hmost
    have hcopies : Bounds.copies ⟨least, none, hordered⟩ = least + 1 :=
      if_neg fun hnative ↦ hleast.not_ge (Int.ofNat_le.2 (of_decide_eq_true hnative))
    rw [hcopies, references, referencesAll_eq_flatMap, hitems, List.flatMap_singleton,
      List.replicate_succ', List.flatten_concat]
    exact ⟨Nat.succ_pos _, rfl⟩
  · obtain ⟨most, rfl, rfl⟩ := Option.map_eq_some_iff.1 hmost
    have hcopies : Bounds.copies ⟨least, some most, hordered⟩ = most := rfl
    rw [hcopies, references_sequenceOf hspelled, hitems, List.flatMap_replicate, references,
      ← List.flatten_append, List.replicate_append_replicate, hsum]
    refine ⟨Nat.pos_of_ne_zero ?_, rfl⟩
    -- Without any copy the sequence would be empty.
    rintro rfl
    rw [Nat.eq_zero_of_add_eq_zero_right hsum, Nat.eq_zero_of_add_eq_zero_left hsum] at hspelled
    cases hspelled

mutual

/-- What is spelled out refers to the names that occur, and no name of the expression is lost. -/
theorem references_spelledOut : ∀ {e e' : Expression}, e.spelledOut = .ok e' →
    e'.references = e.occurrences ∧ ∀ n, n ∈ e.occurrences ↔ n ∈ e.references
  | .reference _, _, h => by
    cases h
    exact ⟨rfl, fun n ↦ Iff.rfl⟩
  | .literal _, _, h => by
    cases h
    exact ⟨rfl, fun n ↦ Iff.rfl⟩
  | .charClass _, _, h => by
    cases h
    exact ⟨rfl, fun n ↦ Iff.rfl⟩
  | .sequence items, _, h => by
    rw [spelledOut] at h
    obtain ⟨es, hes, h⟩ := except_bind_eq_ok.1 h
    cases h
    exact referencesAll_spelledOutAll hes
  | .choice items, _, h => by
    rw [spelledOut] at h
    obtain ⟨es, hes, h⟩ := except_bind_eq_ok.1 h
    cases h
    exact referencesAll_spelledOutAll hes
  | .optional element, _, h => by
    rw [spelledOut] at h
    obtain ⟨e, he, h⟩ := except_bind_eq_ok.1 h
    cases h
    have helement := references_spelledOut he
    exact helement
  | .repetition element bounds, e', h => by
    rw [spelledOut] at h
    obtain ⟨e, he, h⟩ := except_bind_eq_ok.1 h
    obtain ⟨hrefs, hmem⟩ := references_spelledOut he
    have hcopies : 0 < bounds.copies ∧
        e'.references = (List.replicate bounds.copies e.references).flatten := by
      split at h
      · next hnative =>
        cases h
        rw [Bounds.copies, if_pos hnative, List.replicate_one, List.flatten_singleton]
        exact ⟨Nat.one_pos, rfl⟩
      · exact references_repeated h
    refine ⟨by rw [hcopies.2, hrefs, occurrences], fun n ↦ ?_⟩
    rw [occurrences, references, List.mem_flatten, ← hmem n]
    constructor
    · rintro ⟨ns, hns, hn⟩
      rw [List.eq_of_mem_replicate hns] at hn
      exact hn
    · intro hn
      exact ⟨_, List.mem_replicate.2 ⟨hcopies.1.ne', rfl⟩, hn⟩

theorem referencesAll_spelledOutAll : ∀ {es es' : List Expression}, spelledOutAll es = .ok es' →
    referencesAll es' = occurrencesAll es ∧ ∀ n, n ∈ occurrencesAll es ↔ n ∈ referencesAll es
  | [], _, h => by
    cases h
    exact ⟨rfl, fun n ↦ Iff.rfl⟩
  | e :: es, _, h => by
    rw [spelledOutAll] at h
    obtain ⟨e', he, h⟩ := except_bind_eq_ok.1 h
    obtain ⟨es', hes, h⟩ := except_bind_eq_ok.1 h
    cases h
    obtain ⟨hrefs, hmem⟩ := references_spelledOut he
    obtain ⟨hrefsAll, hmemAll⟩ := referencesAll_spelledOutAll hes
    refine ⟨by rw [referencesAll, hrefs, hrefsAll, occurrencesAll], fun n ↦ ?_⟩
    rw [occurrencesAll, referencesAll, List.mem_append, List.mem_append, hmem, hmemAll]

end

end Occurrences

def spelled (e : Expression) : Expression :=
  match e.spelledOut with
  | .ok e' => e'
  | .error _ => e

theorem spelledOut_eq_ok {e : Expression} (h : e.isWritable) :
    e.spelledOut = .ok e.spelled ∧ e.SpelledAs e.spelled := by
  obtain ⟨e', he, hspelled⟩ := exists_spelledOut h
  have heq : e.spelled = e' := by rw [spelled, he]
  rw [heq]
  exact ⟨he, hspelled⟩

end Expression

end AbnfCompiler
