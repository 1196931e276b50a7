import AbnfCompiler.Proofs.Compilation.Definitions
import AbnfCompiler.Proofs.Compilation.Operands

/-!
How a compilation fails. A tree of a wrong shape is a violation. The one other cause are numbers in
hexadecimal values: digits of a pair that are none, and negative numbers, are not refused with a
record but end the compilation.
-/
namespace AbnfCompiler.Compilation

open HexToken

variable {α β : Type} {t n : SyntaxTree} {f : Failure} {es : List Expression}

/-- The failure is not about the shape of the tree. -/
def Failure.IsStray (f : Failure) : Prop := ∀ v, f ≠ .violation v

section Numbers

/-- Neither a value nor a refusal nor a violation. -/
def EndsStray (x : Except Refusal α) : Prop := ∃ f, x = .error (.failure f) ∧ f.IsStray

@[simp] theorem not_endsStray_ok (a : α) : ¬ EndsStray (.ok a) := nofun

@[simp] theorem not_endsStray_refuse (node : SyntaxTree) (reason : Reason) :
    ¬ EndsStray (refuse node reason : Except Refusal α) := nofun

@[simp] theorem not_endsStray_violate (node : SyntaxTree) (cause : Violation.Cause) :
    ¬ EndsStray (violate node cause : Except Refusal α) := by
  rintro ⟨f, hf, hstray⟩
  cases hf
  exact hstray _ rfl

theorem endsStray_bind {x : Except Refusal α} {g : α → Except Refusal β}
    (hx : ¬ EndsStray x) : EndsStray (x >>= g) ↔ ∃ a, x = .ok a ∧ EndsStray (g a) := by
  cases x with
  | ok a => exact ⟨fun h ↦ ⟨a, rfl, h⟩, fun ⟨_, ha, h⟩ ↦ by cases ha; exact h⟩
  | error r =>
    refine iff_of_false ?_ nofun
    rintro ⟨f, hf, hstray⟩
    cases hf
    exact hx ⟨f, rfl, hstray⟩

@[simp] theorem endsStray_map {x : Except Refusal α} (g : α → β) :
    EndsStray (g <$> x) ↔ EndsStray x := by
  cases x with
  | ok a => exact iff_of_false nofun nofun
  | error r =>
    constructor
    · rintro ⟨f, hf, hstray⟩
      cases hf
      exact ⟨f, rfl, hstray⟩
    · rintro ⟨f, hf, hstray⟩
      cases hf
      exact ⟨f, rfl, hstray⟩

/-- The digits of a code point. -/
def IsCode (ds : List Char) : Prop := ∃ c : Codepoint, Text.hexadecimal? ds = some (c.val : ℤ)

theorem pairValue_cases (ds : List Char) :
    (IsCode ds ∧ ∃ c, pairValue ds = .ok c) ∨ (¬ IsCode ds ∧ EndsStray (pairValue ds)) := by
  unfold IsCode pairValue
  cases Text.hexadecimal? ds with
  | none => exact Or.inr ⟨nofun, _, rfl, nofun⟩
  | some k =>
    cases k with
    | negSucc k =>
      refine Or.inr ⟨?_, _, rfl, nofun⟩
      rintro ⟨c, hc⟩
      cases hc
    | ofNat k =>
      by_cases hk : k < 0x110000
      · refine Or.inl ⟨⟨⟨k, hk⟩, rfl⟩, ⟨k, hk⟩, ?_⟩
        simp only [codepoint, Codepoint.ofNat?, dif_pos hk]
      · refine Or.inr ⟨?_, .notCodepoint, ?_, nofun⟩
        · rintro ⟨c, hc⟩
          have hval : (k : ℤ) = c.val := Option.some.inj hc
          have := c.isLt
          omega
        · simp only [codepoint, Codepoint.ofNat?, dif_neg hk]

theorem endsStray_pairs (pairs : List (List Char)) :
    EndsStray (pairs.mapM pairValue) ↔ ∃ ds ∈ pairs, ¬ IsCode ds := by
  induction pairs with
  | nil => exact iff_of_false nofun nofun
  | cons ds pairs ih =>
    rw [List.mapM_cons, List.exists_mem_cons_iff]
    rcases pairValue_cases ds with ⟨hcode, c, hc⟩ | ⟨hcode, f, hf, hstray⟩
    · rw [hc, or_iff_right (not_not_intro hcode)]
      change EndsStray (pairs.mapM pairValue >>= fun cs ↦ pure (c :: cs)) ↔ _
      rw [bind_pure_comp, endsStray_map, ih]
    · rw [hf]
      exact iff_of_true ⟨f, rfl, hstray⟩ (Or.inl hcode)

theorem not_endsStray_hexNumber (node : SyntaxTree) (ds : List Char) :
    ¬ EndsStray (hexNumber node ds) := by
  unfold hexNumber
  split
  · simp
  · split <;> simp

theorem not_endsStray_hexRange (node : SyntaxTree) (ts : List HexToken) :
    ¬ EndsStray (hexRange node ts) := by
  unfold hexRange
  simp only
  split
  · simp
  · rw [endsStray_bind (not_endsStray_hexNumber _ _)]
    rintro ⟨low, -, hlow⟩
    rw [endsStray_bind (not_endsStray_hexNumber _ _)] at hlow
    obtain ⟨high, -, hhigh⟩ := hlow
    revert hhigh
    split
    · exact not_endsStray_ok _
    · exact not_endsStray_refuse _ _

/-- A single value that is no number or too large is refused, but a negative one is not. -/
theorem endsStray_single (node : SyntaxTree) (ds : List Char) :
    EndsStray (hexNumber node ds >>= codepoint) ↔
      ∃ k, Text.hexadecimal? (padded ds) = some k ∧ k < 0 := by
  rw [endsStray_bind (not_endsStray_hexNumber _ _)]
  unfold hexNumber
  cases Text.hexadecimal? (padded ds) with
  | none => exact iff_of_false nofun nofun
  | some k =>
    by_cases hlarge : 0x10FFFF < k
    · simp only [if_pos hlarge]
      refine iff_of_false nofun ?_
      rintro ⟨_, heq, hneg⟩
      cases heq
      omega
    · simp only [if_neg hlarge]
      cases k with
      | negSucc k => exact iff_of_true ⟨_, rfl, _, rfl, nofun⟩ ⟨_, rfl, by omega⟩
      | ofNat k =>
        have hk : k < 0x110000 := by
          simp only [Int.ofNat_eq_natCast] at hlarge
          omega
        refine iff_of_false ?_ ?_
        · rintro ⟨_, heq, h⟩
          cases heq
          simp only [codepoint, Codepoint.ofNat?, dif_pos hk] at h
          exact not_endsStray_ok _ h
        · rintro ⟨_, heq, hneg⟩
          cases heq
          simp only [Int.ofNat_eq_natCast] at hneg
          omega

/-- The tokens are a marker and pairs of digits, one of which is no code point, or a marker and the
digits of a negative number. -/
def HasStrayNumber (ts : List HexToken) : Prop :=
  ts.any isDash = false ∧
    ((∃ pairs, pairs? isMarker ts = some pairs ∧ ∃ ds ∈ pairs, ¬ IsCode ds) ∨
      (pairs? isMarker ts = none ∧ ∃ ds, single? ts = some ds ∧
        ∃ k, Text.hexadecimal? (padded ds) = some k ∧ k < 0))

theorem endsStray_hexValue :
    EndsStray (hexValue t) ↔ HasStrayNumber (HexToken.ofTree t) := by
  unfold hexValue HasStrayNumber
  generalize HexToken.ofTree t = ts
  simp only
  split
  · next hnil =>
    subst hnil
    simp [pairs?]
  · split
    · next hdash => simp [hdash, not_endsStray_hexRange]
    · next hdash =>
      cases hpairs : pairs? isMarker ts with
      | some pairs =>
        simp only [bind_pure_comp, endsStray_map, endsStray_pairs]
        simp [hdash]
      | none =>
        cases hsingle : single? ts with
        | none => simp
        | some ds =>
          have hmap : (hexNumber t ds >>= fun k ↦ (fun c ↦ Expression.literal [c]) <$> codepoint k)
              = (fun c ↦ Expression.literal [c]) <$> (hexNumber t ds >>= codepoint) := by
            rw [map_bind]
          simp only [bind_pure_comp]
          rw [hmap, endsStray_map, endsStray_single]
          simp [hdash]

end Numbers

section Expressions

theorem construct?_eq_numeral {kind : String} :
    construct? kind = some .numeral ↔ kind = "num_val" := by
  constructor
  · intro h
    simpa [constructs] using mem_of_construct? h
  · rintro rfl
    rfl

theorem construct?_eq_hexValue {kind : String} :
    construct? kind = some .hexValue ↔ kind = "hex_val" := by
  constructor
  · intro h
    simpa [constructs] using mem_of_construct? h
  · rintro rfl
    rfl

/-- Compiling a tree comes to a node: those before it do not fail. -/
inductive ComesTo : SyntaxTree → SyntaxTree → Prop
  | self {t : SyntaxTree} : ComesTo t t
  | operand {t c n : SyntaxTree} {before after : List SyntaxTree} :
      operands t = before ++ c :: after → AllCompile before → ComesTo c n → ComesTo t n
  | value {t percent value : SyntaxTree} :
      t.kind = "num_val" → t.children = [percent, value] → percent.kind = "%" → ComesTo t value

/-- Compiling a tree comes to a hexadecimal value with a number that is no code point. -/
def ComesToStray (t : SyntaxTree) : Prop :=
  ∃ n, ComesTo t n ∧ n.kind = "hex_val" ∧ HasStrayNumber (HexToken.ofTree n)

theorem endsStray_numeral : EndsStray (numeral t) ↔
    ∃ percent value, t.children = [percent, value] ∧ percent.kind = "%" ∧ value.kind = "hex_val" ∧
      HasStrayNumber (HexToken.ofTree value) := by
  unfold numeral
  split
  · next percent value hchildren =>
    rw [hchildren]
    split
    · next hpercent => simp [hpercent]
    · next hpercent =>
      split
      · next hvalue =>
        rw [endsStray_hexValue]
        simp_all
      · next hvalue => simp [hvalue]
  · next hchildren =>
    refine iff_of_false (not_endsStray_violate _ _) ?_
    rintro ⟨percent, value, h, -⟩
    exact hchildren percent value h

theorem not_endsStray_counted (operator : SyntaxTree) (e : Expression) :
    ¬ EndsStray (counted operator e) := by
  unfold counted
  split
  · simp
  · split <;> simp

/-- Only the constructs of numbers can fail without a violation. -/
theorem endsStray_combine : EndsStray (combine t es) ↔
    (construct? t.kind = some .numeral ∧ EndsStray (numeral t)) ∨
      (construct? t.kind = some .hexValue ∧ EndsStray (hexValue t)) := by
  unfold combine
  cases construct? t.kind with
  | none => simp
  | some construct =>
    cases construct with
    | elements | quotedString | numeral | hexValue => simp
    | alternation | concatenation =>
      simp only
      split <;> simp
    | option =>
      simp only
      split <;> simp
    | repetition =>
      simp only
      split
      · simp
      · split
        · simp
        · simp [not_endsStray_counted]
      · simp
    | element =>
      simp only
      split
      · simp
      · split <;> simp
    | wrapper =>
      simp only
      split
      · simp
      · split <;> simp

/-- A compilation that fails without a violation. -/
def Strays (x : Compiling α) : Prop := ∃ f, x.result = .error f ∧ f.IsStray

theorem operands_eq_nil (h : construct? t.kind = some .numeral ∨ construct? t.kind = some .hexValue) :
    operands t = [] := by
  unfold operands
  rcases h with h | h
  · rw [h]
  · rw [h]

theorem strays_of_combine (hoperands : operands t = []) (h : EndsStray (combine t [])) :
    Strays (expression? t) := by
  obtain ⟨f, hf, hstray⟩ := h
  refine ⟨f, expression?_eq_error.2 (Or.inr ⟨[], ?_, hf⟩), hstray⟩
  rw [hoperands]
  rfl

theorem strays_expression? : Strays (expression? t) ↔ ComesToStray t := by
  constructor
  · induction t using SyntaxTree.induction with
    | h t ih =>
      intro ⟨f, hf, hstray⟩
      -- The first operand that fails has the failure, or the node itself if none does.
      rcases expression?_eq_error.1 hf with ⟨before, c, after, hoperands, hbefore, hc⟩ | ⟨es, -, he⟩
      · have hmem : c ∈ operands t := by
          rw [hoperands]
          simp
        have hholds := SyntaxTree.holds_of_mem_meaningful (mem_meaningful_of_mem_operands hmem)
        obtain ⟨n, hn, hvalue⟩ := ih c hholds ⟨f, hc, hstray⟩
        exact ⟨n, .operand hoperands hbefore hn, hvalue⟩
      · rcases endsStray_combine.1 ⟨f, he, hstray⟩ with ⟨hkind, hends⟩ | ⟨hkind, hends⟩
        · obtain ⟨percent, value, hchildren, hpercent, hvalue⟩ := endsStray_numeral.1 hends
          exact ⟨value, .value (construct?_eq_numeral.1 hkind) hchildren hpercent, hvalue⟩
        · exact ⟨t, .self, construct?_eq_hexValue.1 hkind, endsStray_hexValue.1 hends⟩
  · rintro ⟨n, hn, hkind, hvalue⟩
    induction hn with
    | @self t =>
      have hconstruct := construct?_eq_hexValue.2 hkind
      exact strays_of_combine (operands_eq_nil (Or.inr hconstruct))
        (endsStray_combine.2 (Or.inr ⟨hconstruct, endsStray_hexValue.2 hvalue⟩))
    | operand hoperands hbefore _ ih =>
      obtain ⟨f, hf, hstray⟩ := ih hkind hvalue
      exact ⟨f, expression?_eq_error.2 (Or.inl ⟨_, _, _, hoperands, hbefore, hf⟩), hstray⟩
    | @value t percent value htree hchildren hpercent =>
      have hconstruct := construct?_eq_numeral.2 htree
      have hends := endsStray_numeral.2 ⟨percent, value, hchildren, hpercent, hkind, hvalue⟩
      exact strays_of_combine (operands_eq_nil (Or.inl hconstruct))
        (endsStray_combine.2 (Or.inl ⟨hconstruct, hends⟩))

end Expressions

section Definitions

variable {node : SyntaxTree} {seen pending : List String}

theorem not_strays_of_ok {x : Compiling α} {a : α} (h : x.result = .ok a) : ¬ Strays x := by
  rintro ⟨f, hf, -⟩
  rw [h] at hf
  cases hf

theorem not_strays_of_violation {x : Compiling α} {v : Violation}
    (h : x.result = .error (.violation v)) : ¬ Strays x := by
  rintro ⟨f, hf, hstray⟩
  rw [h] at hf
  cases hf
  exact hstray v rfl

theorem strays_bind {x : Compiling α} {g : α → Compiling β} :
    Strays (x >>= g) ↔ Strays x ∨ ∃ a, x.result = .ok a ∧ Strays (g a) := by
  unfold Strays
  simp only [Traced.result_bind_eq_error]
  constructor
  · rintro ⟨f, hf | ⟨a, ha, hf⟩, hstray⟩
    · exact Or.inl ⟨f, hf, hstray⟩
    · exact Or.inr ⟨a, ha, f, hf, hstray⟩
  · rintro (⟨f, hf, hstray⟩ | ⟨a, ha, f, hf, hstray⟩)
    · exact ⟨f, Or.inl hf, hstray⟩
    · exact ⟨f, Or.inr ⟨a, ha, hf⟩, hstray⟩

theorem strays_rule? : Strays (rule? node) ↔ ∃ nameNode elements,
    IsRule node nameNode elements ∧ signOf node = defines ∧ ComesToStray elements := by
  constructor
  · intro h
    rcases rule?_cases node with ⟨v, hv⟩ | ⟨nameNode, elements, hrule, hsign | hsign⟩
    · rw [hv] at h
      exact absurd h (not_strays_of_violation rfl)
    · rw [rule?_of_adds hrule hsign] at h
      exact absurd h (not_strays_of_ok rfl)
    · rw [rule?_of_defines hrule hsign, strays_bind] at h
      rcases h with h | ⟨_ | body, -, h⟩
      · exact ⟨nameNode, elements, hrule, hsign, strays_expression?.1 h⟩
      · exact absurd h (not_strays_of_ok rfl)
      · exact absurd h (not_strays_of_ok rfl)
  · rintro ⟨nameNode, elements, hrule, hsign, h⟩
    rw [rule?_of_defines hrule hsign, strays_bind]
    exact Or.inl (strays_expression?.2 h)

theorem exists_stray_fault? : (∃ f, fault? seen node = some f ∧ f.IsStray) ↔
    node.kind = "rule" ∧ Strays (rule? node) := by
  simp only [fault?_eq_some]
  constructor
  · rintro ⟨f, ⟨hkind, hf | ⟨name, body, -, -, rfl⟩⟩, hstray⟩
    · exact ⟨hkind, f, hf, hstray⟩
    · exact absurd rfl (hstray _)
  · rintro ⟨hkind, f, hf, hstray⟩
    exact ⟨f, ⟨hkind, Or.inl hf⟩, hstray⟩

/-- Nodes fail without a violation if one of their rules does, and those before it do not fail. -/
theorem strays_definitionsFrom {nodes : List SyntaxTree} :
    Strays (definitionsFrom seen pending nodes) ↔ ∃ before node after ds,
      nodes = before ++ node :: after ∧ (definitionsFrom seen pending before).result = .ok ds ∧
        node.kind = "rule" ∧ Strays (rule? node) := by
  constructor
  · rintro ⟨f, hf, hstray⟩
    obtain ⟨before, node, after, ds, hnodes, hds, hnode⟩ := definitionsFrom_eq_error.1 hf
    exact ⟨before, node, after, ds, hnodes, hds, exists_stray_fault?.1 ⟨f, hnode, hstray⟩⟩
  · rintro ⟨before, node, after, ds, hnodes, hds, hnode⟩
    obtain ⟨f, hf, hstray⟩ := exists_stray_fault?.2 hnode
    exact ⟨f, definitionsFrom_eq_error.2 ⟨before, node, after, ds, hnodes, hds, hf⟩, hstray⟩

end Definitions

section Whole

variable {root : SyntaxTree} {withCore : Bool}

/-- Compiling the rules of a tree comes to a node in the body of one of them: nothing before it
fails. -/
inductive Reaches (root n : SyntaxTree) : Prop
  | intro {list node nameNode elements : SyntaxTree} {before after : List SyntaxTree}
      {ds : List Definition} :
      (rulelist root).result = .ok list → list.namedChildren = before ++ node :: after →
      (definitionsFrom [] [] before).result = .ok ds → node.kind = "rule" →
      IsRule node nameNode elements → signOf node = defines → ComesTo elements n → Reaches root n

theorem not_strays_rulelist (root : SyntaxTree) : ¬ Strays (rulelist root) := by
  unfold rulelist
  split
  · exact not_strays_of_ok rfl
  · split
    · exact not_strays_of_violation rfl
    · split
      · exact not_strays_of_ok rfl
      · exact not_strays_of_violation rfl

theorem strays_definitions : Strays (definitions root withCore) ↔
    ∃ list, (rulelist root).result = .ok list ∧ Strays (definitionsFrom [] [] list.namedChildren) := by
  constructor
  · rintro ⟨f, hf, hstray⟩
    rcases definitions_eq_error.1 hf with hlist | ⟨list, hlist, hf⟩
    · exact absurd ⟨f, hlist, hstray⟩ (not_strays_rulelist root)
    · exact ⟨list, hlist, f, hf, hstray⟩
  · rintro ⟨list, hlist, f, hf, hstray⟩
    exact ⟨f, definitions_eq_error.2 (Or.inr ⟨list, hlist, hf⟩), hstray⟩

theorem not_strays_iff {x : Compiling α} : ¬ Strays x ↔
    (∃ a, x.result = .ok a) ∨ ∃ v, x.result = .error (.violation v) := by
  constructor
  · intro h
    cases hx : x.result with
    | ok a => exact Or.inl ⟨a, rfl⟩
    | error f =>
      by_contra hviolation
      push Not at hviolation
      exact h ⟨f, hx, fun v hv ↦ hviolation.2 v (congrArg Except.error hv)⟩
  · rintro (⟨a, ha⟩ | ⟨v, hv⟩)
    · exact not_strays_of_ok ha
    · exact not_strays_of_violation hv

theorem strays_iff_reaches : Strays (definitions root withCore) ↔
    ∃ n, Reaches root n ∧ n.kind = "hex_val" ∧ HasStrayNumber (HexToken.ofTree n) := by
  rw [strays_definitions]
  constructor
  · rintro ⟨list, hlist, h⟩
    obtain ⟨before, node, after, ds, hnodes, hds, hkind, hnode⟩ := strays_definitionsFrom.1 h
    obtain ⟨nameNode, elements, hrule, hsign, n, hn, hvalue⟩ := strays_rule?.1 hnode
    exact ⟨n, .intro hlist hnodes hds hkind hrule hsign hn, hvalue⟩
  · rintro ⟨n, ⟨hlist, hnodes, hds, hkind, hrule, hsign, hn⟩, hvalue⟩
    have hnode := strays_rule?.2 ⟨_, _, hrule, hsign, n, hn, hvalue⟩
    exact ⟨_, hlist, strays_definitionsFrom.2 ⟨_, _, _, _, hnodes, hds, hkind, hnode⟩⟩

/-- Compiling a tree gives definitions or ends with a violation, unless it comes to a hexadecimal
value with a number that is no code point. -/
theorem ok_or_violation_iff (root : SyntaxTree) (withCore : Bool) :
    ((∃ ds, (definitions root withCore).result = .ok ds) ∨
      ∃ v, (definitions root withCore).result = .error (.violation v)) ↔
    ∀ n, Reaches root n → n.kind = "hex_val" → ¬ HasStrayNumber (HexToken.ofTree n) := by
  rw [← not_strays_iff, strays_iff_reaches]
  push Not
  rfl

end Whole

section Instances

/-- A rule with a value given as one leaf, whose two digits are none. -/
def strayTree : SyntaxTree :=
  .branch "rulelist" [.branch "rule" [.leaf "rulename" "bad", .leaf "defined_as" " = ",
    .branch "elements" [.branch "element" [.branch "num_val"
      [.token "%" "%", .leaf "hex_val" "xGG"]]]]]

theorem not_ok_or_violation_strayTree :
    ¬ ((∃ ds, (definitions strayTree false).result = .ok ds) ∨
      ∃ v, (definitions strayTree false).result = .error (.violation v)) := by
  have h : (definitions strayTree false).result = .error (.notHex "GG") := rfl
  rw [h]
  rintro (⟨ds, hds⟩ | ⟨v, hv⟩)
  · cases hds
  · cases hv

end Instances

end AbnfCompiler.Compilation
