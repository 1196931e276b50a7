import AbnfCompiler.Proofs.Compilation.Definitions
import AbnfCompiler.Proofs.Compilation.Operands
import AbnfCompiler.Proofs.Expression.NormalForm

/-!
The expressions that syntax trees are compiled to are in normal form, and so are those of the core
rules.
-/
namespace AbnfCompiler.Compilation

variable {t node : SyntaxTree} {e e' : Expression} {es : List Expression}

theorem map_eq_ok {α β : Type} {x : Except Refusal α} {f : α → β} {b : β} :
    f <$> x = .ok b ↔ ∃ a, x = .ok a ∧ f a = b := by
  rw [map_eq_pure_bind, except_bind_eq_ok]
  simp only [pure, Except.pure, Except.ok.injEq]

section Terminals

theorem isNormal_hexRange {ts : List HexToken} (h : hexRange node ts = .ok e) : e.isNormal := by
  unfold hexRange at h
  simp only at h
  split at h
  · cases h
  · obtain ⟨low, -, h⟩ := except_bind_eq_ok.1 h
    obtain ⟨high, -, h⟩ := except_bind_eq_ok.1 h
    split at h
    · next range _ =>
      cases h
      exact Expression.isNormal_charClass range
    · cases h

theorem isNormal_hexValue (h : hexValue node = .ok e) : e.isNormal := by
  unfold hexValue at h
  simp only at h
  split at h
  · cases h
  split at h
  · exact isNormal_hexRange h
  -- What is no range is a literal.
  split at h
  · obtain ⟨value, -, h⟩ := except_bind_eq_ok.1 h
    cases h
    rfl
  split at h
  · obtain ⟨n, -, h⟩ := except_bind_eq_ok.1 h
    obtain ⟨c, -, h⟩ := except_bind_eq_ok.1 h
    cases h
    rfl
  · cases h

theorem isNormal_numeral (h : numeral node = .ok e) : e.isNormal := by
  unfold numeral at h
  split at h
  · split at h
    · cases h
    split at h
    · exact isNormal_hexValue h
    · cases h
  · cases h

end Terminals

theorem isNormal_counted (he : e.isNormal) (h : counted node e = .ok e') : e'.isNormal := by
  unfold counted at h
  split at h
  · cases h
  split at h
  · cases h
  · next hrepeated =>
    cases h
    exact Expression.isNormal_repeated he hrepeated

/-- Every construct keeps the normal form. -/
theorem isNormal_combine (hes : ∀ x ∈ es, x.isNormal) (h : combine t es = .ok (some e)) :
    e.isNormal := by
  have hhead : ∀ {x}, es.head? = some x → x.isNormal := fun hx ↦ hes _ (List.mem_of_head? hx)
  unfold combine at h
  cases hconstruct : construct? t.kind with
  | none =>
    rw [hconstruct] at h
    cases h
  | some construct =>
    rw [hconstruct] at h
    cases construct with
    | elements => exact Expression.isNormal_sequenceOf hes (Except.ok.inj h)
    | alternation =>
      simp only at h
      split at h
      · cases h
      · exact Expression.isNormal_choiceOf hes (Except.ok.inj h)
    | concatenation =>
      simp only at h
      split at h
      · cases h
      · exact Expression.isNormal_sequenceOf hes (Except.ok.inj h)
    | repetition =>
      simp only at h
      split at h
      · exact hhead (Except.ok.inj h)
      · split at h
        · cases h
        · next element helement =>
          obtain ⟨_, hcounted, heq⟩ := map_eq_ok.1 h
          cases heq
          exact isNormal_counted (hhead helement) hcounted
      · cases h
    | option =>
      simp only at h
      split at h
      · obtain ⟨element, helement, rfl⟩ := Option.map_eq_some_iff.1 (Except.ok.inj h)
        have hnormal := hhead helement
        exact hnormal
      · cases h
    | element =>
      simp only at h
      split at h
      · cases h
      · split at h
        · cases h
          rfl
        · exact hhead (Except.ok.inj h)
    | numeral =>
      obtain ⟨_, hnumeral, heq⟩ := map_eq_ok.1 h
      cases heq
      exact isNormal_numeral hnumeral
    | hexValue =>
      obtain ⟨_, hvalue, heq⟩ := map_eq_ok.1 h
      cases heq
      exact isNormal_hexValue hvalue
    | quotedString =>
      cases h
      rfl
    | wrapper =>
      simp only at h
      split at h
      · exact hhead (Except.ok.inj h)
      · split at h
        · cases h
          rfl
        · cases h

theorem isNormal_of_forall₂ {ts : List SyntaxTree} {found : List (Option Expression)}
    (h : List.Forall₂ (fun c e ↦ (expression? c).result = .ok e) ts found)
    (hts : ∀ c ∈ ts, ∀ e, (expression? c).result = .ok (some e) → e.isNormal) :
    ∀ x ∈ found.flatMap Option.toList, x.isNormal := by
  induction h with
  | nil => exact List.forall_mem_nil _
  | @cons c o ts found hc _ ih =>
    rw [List.forall_mem_cons] at hts
    rw [List.flatMap_cons]
    refine List.forall_mem_append.2 ⟨?_, ih hts.2⟩
    intro x hx
    obtain rfl : o = some x := Option.mem_toList.1 hx
    exact hts.1 x hc

theorem isNormal_expression? (t : SyntaxTree) :
    ∀ e, (expression? t).result = .ok (some e) → e.isNormal := by
  induction t using SyntaxTree.induction with
  | h t ih =>
    intro e he
    rcases expression?_cases t with ⟨found, _, hfound, hcombine, heq⟩ | ⟨_, _, -, heq⟩ |
      ⟨_, _, -, heq⟩
    · rw [heq] at he
      cases he
      refine isNormal_combine (isNormal_of_forall₂ hfound ?_) hcombine
      intro c hc
      exact ih c (SyntaxTree.holds_of_mem_meaningful (mem_meaningful_of_mem_operands hc))
    · rw [heq] at he
      cases he
    · rw [heq] at he
      cases he

section Definitions

variable {root : SyntaxTree} {withCore : Bool} {ds : List Definition}

theorem Collected.isNormal {seen pending : List String} {nodes : List SyntaxTree}
    {events : List Event} (h : Collected seen pending nodes ds events) :
    ∀ d ∈ ds, d.body.isNormal := by
  induction h with
  | nil => exact List.forall_mem_nil _
  | comment _ _ ih | leftOut _ _ _ ih | other _ _ _ ih => exact ih
  | kept _ hrule _ _ ih =>
    obtain ⟨_, elements, -, -, -, hbody, -⟩ := rule?_eq_some hrule
    exact List.forall_mem_cons.2 ⟨isNormal_expression? elements _ hbody, ih⟩

theorem isNormal_of_mem_freeCore {taken : List String} {d : Definition}
    (h : d ∈ freeCore taken CoreRules.bodies) : d.body.isNormal := by
  have hcore : ∀ r ∈ CoreRules.bodies, r.2.isNormal := by decide
  obtain ⟨r, hr, rfl⟩ := List.mem_map.1 h
  exact hcore r (List.mem_of_mem_filter hr)

theorem isNormal_of_definitions (h : (definitions root withCore).result = .ok ds) :
    ∀ d ∈ ds, d.body.isNormal := by
  obtain ⟨list, own, -, hown, rfl, -⟩ := definitions_eq_ok h
  refine List.forall_mem_append.2 ⟨(collected_of_definitionsFrom hown).isNormal, ?_⟩
  split
  · intro d hd
    exact isNormal_of_mem_freeCore hd
  · exact List.forall_mem_nil _

end Definitions

end AbnfCompiler.Compilation
